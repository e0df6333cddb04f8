import CoroActor.Proxy.Delivery

/-! No request is lost or duplicated, in the runs in which no request is dropped, no write fails and no
RESPONSE is for a request that was buffered. -/

namespace CoroActor.Proxy

open TransitionSystem

/-- Where a request is: in the queue of an actor, at the actor it was written to, or answered at the actor
that issued it. -/
inductive Place where
  | buffered (r : Ref)
  | written (r : Ref)
  | closed (r : Ref)
  deriving DecidableEq

namespace Sys

variable {cfg : Setting} {s t : Sys} {l : Label} {n : Nat}

/-- All the places a request is in, as often as it is there: once for each entry in a queue, for each
REQUEST frame written for it while it is not answered, and for each RESPONSE to it that was written to the
connection it came from. -/
def places (s : Sys) (n : Nat) : List Place :=
  ((List.range s.proxy.nactors).flatMap fun r =>
    List.replicate (((s.proxy.actors r).msgQueue.map Queued.serial).count n) (.buffered r)) ++
  (if s.history.replies n = [] then (s.history.written n).map .written else []) ++
  ((s.history.replies n).filter fun r => (s.proxy.actors r).socket = s.history.conn n).map .closed

/-- The step drops no request, no write of a REQUEST or RESPONSE fails, and a RESPONSE is for a request that
was never buffered. -/
def Keeps (cfg : Setting) (s : Sys) : Label → Prop
  | .run k => ∀ x ∈ s.taken k, (s.destination cfg x).isOk = true
  | .resume k ec => ec = true → s.pc k = .connack
  | .read k (.response p) => ∀ n ∈ s.answered k p.callId, s.history.buffered n = []
  | _ => True

instance (cfg : Setting) (s : Sys) : (l : Label) → Decidable (Keeps cfg s l)
  | .run k => inferInstanceAs (Decidable (∀ x ∈ s.taken k, _))
  | .resume _ ec => inferInstanceAs (Decidable (ec = true → _))
  | .read k (.response p) => inferInstanceAs (Decidable (∀ n ∈ s.answered k p.callId, _))
  | .read _ (.connect _) | .read _ (.request _) | .read _ (.other _) | .accept | .readError _
  | .transfer .. => inferInstanceAs (Decidable True)

private theorem flatMap_of_unique {α : Type} {f : Nat → List α} {r : Nat} {l : List Nat}
    (hnd : l.Nodup) (hr : r ∈ l) (hf : ∀ r' ∈ l, r' ≠ r → f r' = []) : l.flatMap f = f r := by
  induction l with
  | nil => cases hr
  | cons a l ih =>
      obtain ⟨ha, hnd'⟩ := List.nodup_cons.mp hnd
      rw [List.flatMap_cons]
      rcases List.mem_cons.mp hr with rfl | hr'
      · have hnil : l.flatMap f = [] := List.flatMap_eq_nil_iff.mpr fun r' hr' =>
          hf r' (List.mem_cons_of_mem _ hr') fun heq => ha (heq ▸ hr')
        rw [hnil, List.append_nil]
      · have hne : a ≠ r := fun heq => ha (heq ▸ hr')
        rw [hf a List.mem_cons_self hne, List.nil_append]
        exact ih hnd' hr' fun r' h' => hf r' (List.mem_cons_of_mem _ h')

theorem Sound.places_of_waits (hs : Sound cfg s) (hw : s.Waits n) : ∃ r, s.places n = [.buffered r] := by
  obtain ⟨r, q, hq, rfl⟩ := hw
  obtain ⟨hn, -, hwritten, hholder⟩ := hs.booked.queued r q hq
  have hr : r < s.proxy.nactors := by
    rw [← hholder]
    exact hs.booked.holder_lt hn
  refine ⟨r, ?_⟩
  rw [places, flatMap_of_unique List.nodup_range (List.mem_range.mpr hr)]
  · rw [List.count_eq_one_of_mem (hs.booked.nodup r) (List.mem_map_of_mem hq), hwritten,
      hs.booked.replies_nil hn hwritten]
    rfl
  · intro r' _ hne
    rw [List.count_eq_zero_of_not_mem, List.replicate_zero]
    intro hmem
    obtain ⟨q', hq', heq⟩ := List.mem_map.mp hmem
    exact hne (hs.booked.queue_unique hq' hq heq).1

theorem Sound.places_of_written (hs : Sound cfg s) (hw : s.history.written n ≠ []) : s.places n =
    (if s.history.replies n = [] then (s.history.written n).map .written else []) ++
      ((s.history.replies n).filter fun r => (s.proxy.actors r).socket = s.history.conn n).map .closed := by
  have hnil : ((List.range s.proxy.nactors).flatMap fun r =>
      List.replicate (((s.proxy.actors r).msgQueue.map Queued.serial).count n) (Place.buffered r)) = [] := by
    refine List.flatMap_eq_nil_iff.mpr fun r _ => ?_
    rw [List.count_eq_zero_of_not_mem, List.replicate_zero]
    intro hmem
    obtain ⟨q, hq, rfl⟩ := List.mem_map.mp hmem
    exact hw (hs.booked.queued r q hq).2.2.1
  rw [places, hnil, List.nil_append]

/-- The frame that put a request where it is has gone out whole, and an answer went to the connection that
the request came from. -/
def Settled (s : Sys) (n : Nat) : Place → Prop
  | .buffered _ => True
  | .written _ => s.history.delivered n = true
  | .closed r => s.history.returned n = true ∧ (s.proxy.actors r).socket = s.history.conn n

end Sys

end CoroActor.Proxy

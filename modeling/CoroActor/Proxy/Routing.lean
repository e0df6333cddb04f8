import CoroActor.Proxy.Sound

/-! Where the proxy sends the answer to a request. The recipient is whatever is at the back of the call
chain when the sender of the RESPONSE has left it. -/

namespace CoroActor.Proxy

open TransitionSystem

namespace Sys

variable {cfg : Setting} {s t : Sys} {k : Conn} {p : CoroActorResponse}

theorem Sound.chain_of_response (hs : Sound cfg s) (hrule : s.ResponseRule k p) :
    ∃ L back afSelf, s.proxy.chain p.callId = L ++ [back, afSelf] := by
  obtain ⟨hidle, hserves⟩ := hrule
  obtain ⟨n, hn, -, ha⟩ := answered_of_serves hserves
  obtain ⟨hlive, hc, callee, hlt, hk, hw⟩ := hs.answers hn ha
  cases hm : s.proxy.actorCallChainMap p.callId with
  | none => exact absurd hc (hs.booked.unopened _ hm n hn)
  | some L₀ =>
      obtain ⟨a, ns, hst⟩ := hs.booked.chained _ _ hm
      have hhead := hst.head_of_idle (hs.answered_of_idle hidle hlt hk) hn hc hlive hw
      obtain ⟨ns', rfl⟩ : ∃ ns', ns = n :: ns' := List.head?_eq_some_iff.mp hhead
      obtain ⟨L', hL', -⟩ := hst.stacked.top
      rw [History.block_live_cons hlive hw, List.cons_append] at hL'
      cases hrest : (s.history.buffered n).reverse ++ s.history.issuer n :: L' with
      | nil => exact absurd hrest (List.append_ne_nil_of_right_ne_nil _ (List.cons_ne_nil _ _))
      | cons back rest =>
          rw [hrest] at hL'
          refine ⟨rest.reverse, back, callee, ?_⟩
          rw [Registry.chain, hm, Option.getD_some, ← List.reverse_reverse L₀, hL']
          simp

theorem Sound.response_step (hs : Sound cfg s) (hrule : s.ResponseRule k p)
    (hst : s.step cfg (.read k (.response p)) = some t) :
    ∃ n < s.history.nreq, ∃ L callee, s.answered k p.callId = some n ∧ s.history.Live n ∧
      s.history.written n = [callee] ∧ (s.proxy.actors callee).socket = k ∧
      t = (s.setProxy (s.proxy.setChain p.callId (L ++ [s.history.holder n]))
          (s.history.reply (some n) (s.history.holder n))).startWrite k (.response callee p.callId)
        (s.proxy.actors (s.history.holder n)).socket ⟨coroActorResponse, cfg.serialize.response p⟩
        (.response (some n)) := by
  obtain ⟨L, back, afSelf, hchain⟩ := hs.chain_of_response hrule
  obtain ⟨n, hn, hans, hlive, -, hw, -, hk, rfl, -⟩ := hs.reply hrule hchain
  simp only [Sys.step, Option.ite_none_right_eq_some, Option.some.injEq, onFrame] at hst
  obtain ⟨-, rfl⟩ := hst
  rw [onResponse_eq hchain, hans]
  exact ⟨n, hn, L, afSelf, rfl, hlive, hw, hk, rfl⟩

/-- The RESPONSE frame for the request is written to this socket and to no other. -/
def ResponseWritten (cfg : Setting) (s t : Sys) (k : Conn) (p : CoroActorResponse) (n : Nat)
    (socket : Conn) : Prop :=
  t.write k = ⟨socket, ⟨coroActorResponse, cfg.serialize.response p⟩,
    (⟨coroActorResponse, cfg.serialize.response p⟩ : Frame).bytes, .response (some n)⟩ ∧
  t.history.frames = Function.update s.history.frames socket
    (s.history.frames socket ++ [⟨coroActorResponse, cfg.serialize.response p⟩])

/-- The RESPONSE frame for the request is written to the socket of the actor that issued the request, whose
pid is the pid of the request, and to no other. -/
def ReachesIssuer (cfg : Setting) (s t : Sys) (k : Conn) (p : CoroActorResponse) (n : Nat) : Prop :=
  ∃ issuer < s.proxy.nactors, (s.proxy.actors issuer).pid = (s.history.pack n).pid ∧
    (s.proxy.actors issuer).socket = s.history.conn n ∧
    ResponseWritten cfg s t k p n (s.proxy.actors issuer).socket

end Sys

end CoroActor.Proxy

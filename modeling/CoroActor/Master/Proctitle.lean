import CoroActor.Library.CString
import CoroActor.Protocol
import Mathlib.Data.List.Forall2

/-! The title of a process: `cpystrn`, `init_setproctitle` and `set_proctitle`, on the bytes of the arguments and
of the environment. The arrays of pointers are lists, up to their null pointer. -/

namespace CoroActor.Proctitle

open CMemory

/-- What `cpystrn` copies from: a string in memory, or one of the program's own, a literal or `c_str()`. -/
inductive Source where
  | mem (a : Nat)
  | text (s : StdString)

namespace Source

/-- `*src`. -/
def head (m : Mem) : Source → UInt8
  | mem a => m.byte a
  | text s => s.headD 0

/-- `src++`. -/
def next : Source → Source
  | mem a => mem (a + 1)
  | text s => text s.tail

end Source

/-- What is returned is the place of the zero, if anything was written. -/
def cpystrn (m : Mem) (dst : Nat) (src : Source) : Nat → Nat × Mem
  | 0 => (dst, m)
  | 1 => (dst, m.write dst 0)
  | n + 2 =>
      let m := m.write dst (src.head m)
      if m.byte dst = 0 then (dst, m) else cpystrn m (dst + 1) src.next (n + 1)

/-- The memory of the process, the pointers, and the members of `coro_actor`. -/
structure Process where
  mem : Mem
  environ : List Nat
  osArgv : List Nat
  osArgvLast : Nat
  osEnviron : Nat

/-- The second loop over `environ`: a string where `os_argv_last` points to is copied to `p`. -/
def moveEnviron (m : Mem) (last p : Nat) : List Nat → Mem × Nat × List Nat
  | [] => (m, last, [])
  | e :: es =>
      if last = e then
        let size := m.strlen e + 1
        let r := moveEnviron (cpystrn m p (.mem e) size).2 (e + size) (p + size) es
        (r.1, r.2.1, p :: r.2.2)
      else
        let r := moveEnviron m last p es
        (r.1, r.2.1, e :: r.2.2)

namespace Process

variable (q : Process)

/-- The size of the buffer for the environment. -/
def environSize : Nat := q.environ.foldl (fun size e => size + (q.mem.strlen e + 1)) 0

/-- `init_setproctitle`. The buffer that `make_unique` gets from `new` is set to zero. -/
def initSetproctitle (new : Nat → Nat) : Process :=
  let size := q.environSize
  let osEnviron := new size
  let mem := q.mem.memset osEnviron 0 size
  let last := q.osArgv.foldl (fun last a => if last = a then a + mem.strlen a + 1 else last) q.osArgvLast
  let r := moveEnviron mem last osEnviron q.environ
  { mem := r.1, environ := r.2.2, osArgv := q.osArgv, osArgvLast := r.2.1 - 1, osEnviron := osEnviron }

/-- `set_proctitle`. The second argument becomes a null pointer. -/
def setProctitle (title : StdString) : Process :=
  let argv := q.osArgv.headD 0
  let (p, mem) := cpystrn q.mem argv (.text (ascii "coro_actor")) (q.osArgvLast - argv)
  let (p, mem) := cpystrn mem p (.text (ascii ": ")) (q.osArgvLast - p)
  let (p, mem) := cpystrn mem p (.text title) (q.osArgvLast - p)
  let mem := if q.osArgvLast - p ≠ 0 then mem.memset p 0 (q.osArgvLast - p) else mem
  { q with mem := mem, osArgv := q.osArgv.take 1 }

end Process

end CoroActor.Proctitle

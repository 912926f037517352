import Oreo.Bench.Socket.Model
import Oreo.Posix.Blocking

namespace Oreo.Bench.Socket

open Oreo.Posix Oreo.Transition

variable {Pc : Type} {prog : Program (Locals Pc)} {setup : Setup → Pc} {release : Release → Pc} {iterCnt : Nat}
variable {forked : Locals Pc → Locals Pc} {w : World (Locals Pc)} {p : Proc (Locals Pc)} {call : Call} {r : Reply}

/-- `prog` runs the shared code: the setup up to the `fork`, and the cleanup, also
when the `fork` has failed. -/
structure Starts (prog : Program (Locals Pc)) (setup : Setup → Pc) (release : Release → Pc) (iterCnt : Nat)
    (forked : Locals Pc → Locals Pc) : Prop where
  request : ∀ l s, l.pc = setup s → prog.request l = some s.request
  resume : ∀ l s r, l.pc = setup s →
    prog.resume l r = (l.observe r).prepare setup release iterCnt forked r s
  unforked : ∀ l, l.pid = -1 → forked l = l.err release
  requestRelease : ∀ l s, l.pc = release s → prog.request l = s.request
  resumeRelease : ∀ l s r, l.pc = release s → prog.resume l r = (l.observe r).finish release s

structure HasPipes (l : Locals Pc) (handles : List Handle) : Prop where
  fds1 : OpenPipe 0 l.fds1 handles
  fds2 : OpenPipe 1 l.fds2 handles

def Setup.Opened (p : Proc (Locals Pc)) : Setup → Prop
  | .allocDiffs | .allocBuf | .pipe1 => True
  | .pipe2 => OpenPipe 0 p.locals.fds1 p.handles
  | .remove | .fork => HasPipes p.locals p.handles

structure Preparing (setup : Setup → Pc) (p : Proc (Locals Pc)) : Prop where
  running : p.status = .running
  tally : p.tally = .zero
  opened : ∃ s : Setup, p.locals.pc = setup s ∧ s.Opened p

theorem Preparing.entry (setup : Setup → Pc) (machine : Machine) (errno : Errno) (errored : Bool) :
    ∃ first, (World.boot machine (Locals.entry (setup .allocDiffs) errno errored)).procs = [first] ∧
      Preparing setup first :=
  ⟨_, rfl, rfl, rfl, .allocDiffs, rfl, trivial⟩

/-- The variables that are not assigned after the fork. -/
def Locals.settled (l : Locals Pc) : Int × (Fd × Fd) × (Fd × Fd) := (l.pid, l.fds1, l.fds2)

theorem HasPipes.of_settled {l l' : Locals Pc} {handles : List Handle} (pipes : HasPipes l handles)
    (same : l'.settled = l.settled) (open_ : ∀ fd, call ≠ .close fd) :
    HasPipes l' (chargeHandles handles call r) := by
  simp only [Locals.settled, Prod.mk.injEq] at same
  constructor
  · rw [same.2.1]
    exact pipes.fds1.charge open_
  · rw [same.2.2]
    exact pipes.fds2.charge open_

@[simp] theorem closing_settled (l : Locals Pc) (pending : List Fd) :
    (l.closing release pending).settled = l.settled := by
  cases pending <;> rfl

@[simp] theorem cleanup_settled (l : Locals Pc) : (l.cleanup release).settled = l.settled := rfl

@[simp] theorem err_settled (l : Locals Pc) : (l.err release).settled = l.settled := rfl

@[simp] theorem finish_settled (l : Locals Pc) (s : Release) : (l.finish release s).settled = l.settled := by
  cases s
  case close => exact closing_settled _ _
  all_goals rfl

@[simp] theorem finish_idx (l : Locals Pc) (s : Release) : (l.finish release s).idx = l.idx := by
  cases s with
  | close fd pending => cases pending <;> rfl
  | _ => rfl

theorem charge_release {s : Release} (asked : s.request = some call) (t : Tally) : t.charge call r = t := by
  cases s <;> simp only [Release.request, Option.some.injEq, reduceCtorEq] at asked <;> subst asked <;> rfl

theorem finish_pc (release : Release → Pc) (l : Locals Pc) (s : Release) (atRelease : l.pc = release s) :
    ∃ s', (l.finish release s).pc = release s' := by
  cases s with
  | close fd pending => cases pending <;> exact ⟨_, rfl⟩
  | remove => exact ⟨_, rfl⟩
  | returned => exact ⟨_, atRelease⟩

/-- The calls of a process that has no child: before its `fork`, or after a failure. -/
def Childless (setup : Setup → Pc) (release : Release → Pc) (l : Locals Pc) : Prop :=
  (∃ s, l.pc = setup s) ∨ ∃ s, l.pc = release s

theorem childless_err (l : Locals Pc) : Childless setup release (l.err release) := .inr ⟨_, rfl⟩

theorem Starts.childless (starts : Starts prog setup release iterCnt forked) {l : Locals Pc}
    (childless : Childless setup release l) (asked : prog.request l = some call)
    (noChild : ∀ n, ¬ (call = .fork ∧ r = .pid n)) : Childless setup release (prog.resume l r) := by
  rcases childless with ⟨s, pc⟩ | ⟨s, pc⟩
  · rw [starts.request l s pc, Option.some.injEq] at asked
    rw [starts.resume l s r pc]
    cases s <;> simp only [Locals.prepare]
    case remove => exact .inl ⟨.fork, rfl⟩
    case fork =>
        have failed : r.child = -1 := by cases r <;> first | rfl | simp [← asked, Setup.request] at noChild
        rw [starts.unforked _ failed]
        exact childless_err _
    all_goals
      split
      · exact childless_err _
      · exact .inl ⟨_, rfl⟩
  · rw [starts.resumeRelease l s r pc]
    exact .inr (finish_pc release _ s pc)

/-- `before` tells the calls up to the `fork`: only the last of them forks, and the
code after it does not come back or touch what is `settled`. -/
theorem Starts.forksOnce {before : Pc → Bool} (starts : Starts prog setup release iterCnt forked)
    (early : before (setup .fork) = true)
    (forks : ∀ l, prog.request l = some .fork → l.pc = setup .fork)
    (branches : ∀ l, before (forked l).pc = false ∧ (forked l).settled = l.settled)
    (later : ∀ l r, before l.pc = false →
      before (prog.resume l r).pc = false ∧ (prog.resume l r).settled = l.settled) :
    ForksOnce prog (fun l => before l.pc = true) (fun l => l.pid) where
  before l asked := by
    rw [forks l asked]
    exact early
  after l r asked := by
    rw [starts.resume l .fork r (forks l asked), Locals.prepare, (branches _).1]
    simp
  stays l call r asked notFork past := by
    rw [(later l r (by simpa using past)).1]
    simp
  result l n asked := by
    rw [starts.resume l .fork _ (forks l asked), Locals.prepare]
    exact congrArg Prod.fst (branches _).2
  keeps l call r asked notFork past := congrArg Prod.fst (later l r (by simpa using past)).2

section

variable (starts : Starts prog setup release iterCnt forked) (preparing : Preparing setup p)
include starts preparing

theorem Preparing.advance (turn : Turn prog w 0 p call r) (natural : w.natural prog p call r = true)
    (noChild : ∀ n, ¬ (call = .fork ∧ r = .pid n)) :
    Preparing setup { p.advance prog call r with status := w.fate prog 0 0 p call r } := by
  obtain ⟨running, tally, s, pc, opened⟩ := preparing
  have asked := turn.request
  have next := starts.resume p.locals s r pc
  rw [starts.request _ _ pc, Option.some.injEq] at asked
  subst asked
  have silent : s.request.signals = false := by cases s <;> rfl
  refine ⟨(fate_of_silent silent).trans running, ?_, ?_⟩
  · cases s <;> exact tally
  · simp only [Proc.advance, next]
    cases s with
    | allocDiffs =>
        obtain rfl := ok_of_plain natural rfl
        exact ⟨.allocBuf, rfl, trivial⟩
    | allocBuf =>
        obtain rfl := ok_of_plain natural rfl
        exact ⟨.pipe1, rfl, trivial⟩
    | pipe1 =>
        obtain rfl := ok_of_plain natural rfl
        exact ⟨.pipe2, rfl, .new _ _⟩
    | pipe2 =>
        obtain rfl := ok_of_plain natural rfl
        have kept : OpenPipe 0 p.locals.fds1 (chargeHandles p.handles (.pipe 1) .ok) := OpenPipe.charge opened (by simp)
        exact ⟨.remove, rfl, kept, .new _ _⟩
    | remove =>
        have kept : HasPipes { p.locals with pc := setup .fork } (chargeHandles p.handles .remove r) :=
          ⟨opened.fds1.charge (by simp), opened.fds2.charge (by simp)⟩
        exact ⟨.fork, rfl, kept.fds1, kept.fds2⟩
    | fork => cases r <;> simp [World.natural, Setup.request] at natural noChild

theorem Preparing.atFork (asked : prog.request p.locals = some .fork) :
    p.locals.pc = setup .fork ∧ HasPipes p.locals p.handles := by
  obtain ⟨-, -, s, pc, opened⟩ := preparing
  rw [starts.request _ _ pc, Option.some.injEq] at asked
  cases s <;> first | contradiction | exact ⟨pc, opened⟩

theorem Preparing.canStep {rule : Rule (Locals Pc)} (procs : w.procs = [p])
    (permits : ∀ s : Setup, ∀ r, w.natural prog p s.request r = true → rule w 0 p s.request r = true) :
    CanStep prog (Obeys prog rule) w := by
  have found : w.procs[0]? = some p := by rw [procs]; rfl
  obtain ⟨running, -, s, pc, -⟩ := preparing
  have asked := starts.request _ _ pc
  obtain ⟨r, natural⟩ : ∃ r, w.natural prog p s.request r = true := by
    cases s with
    | fork =>
        obtain ⟨n, natural⟩ := natural_fork prog w p
        exact ⟨_, natural⟩
    | _ => exact ⟨.ok, rfl⟩
  exact canStep_of_natural found running asked natural (permits s r natural)

end

end Oreo.Bench.Socket

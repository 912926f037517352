import Oreo.Posix.Supervision

namespace Oreo.Posix

open Oreo.Transition

/-! # Blocking calls

An assumption on the outcomes of calls is a `rule`: the replies it lets the kernel
give to the call that a process is making.
-/

abbrev Rule (L : Type u) := World L → Nat → Proc L → Call → Reply → Bool

def answers (prog : Program L) (rule : Rule L) (w : World L) (label : Label) : Bool :=
  match w.procs[label.proc]? with
  | none => false
  | some p =>
      match prog.request p.locals with
      | none => false
      | some call => rule w label.proc p call label.reply

abbrev Obeys (prog : Program L) (rule : Rule L) : World L → Label → Prop :=
  fun w label => answers prog rule w label = true

/-- Nothing fails for outside reasons. -/
def undisturbed (prog : Program L) : Rule L := fun w _ p call r => w.natural prog p call r

section

variable {L : Type*} {prog : Program L} {rule : Rule L} {allowed : World L → Label → Prop}
variable {w : World L} {p : Proc L} {call : Call} {r : Reply} {index pipe : Nat}

/-- Process `index` is inside a call of the kind `waiting`, and no reply can come now. -/
def BlockedIn (prog : Program L) (allowed : World L → Label → Prop) (waiting : Call → Bool) (index : Nat)
    (w : World L) : Prop :=
  ∃ p call, w.procs[index]? = some p ∧ p.status = .running ∧ prog.request p.locals = some call ∧
    waiting call = true ∧ ∀ r, allowed w ⟨index, r⟩ → step prog w ⟨index, r⟩ = none

def BlockedForever (prog : Program L) (allowed : World L → Label → Prop) (waiting : Call → Bool) (index : Nat)
    (w : World L) : Prop :=
  Always (step prog) allowed (BlockedIn prog allowed waiting index) w

def Over (prog : Program L) (index : Nat) (w : World L) : Prop :=
  ∃ p, w.procs[index]? = some p ∧ p.finished prog = true

/-- One process is gone while another one waits for ever. -/
def LeftBehind (prog : Program L) (allowed : World L → Label → Prop) (waiting : Call → Bool) (w : World L) : Prop :=
  ∃ gone left, Over prog gone w ∧ BlockedForever prog allowed waiting left w

theorem answers_eq (found : w.procs[index]? = some p) (request : prog.request p.locals = some call) :
    answers prog rule w ⟨index, r⟩ = rule w index p call r := by
  simp only [answers, found, request]

theorem Turn.obeys (turn : Turn prog w index p call r) (permitted : Obeys prog rule w ⟨index, r⟩) :
    rule w index p call r = true :=
  (answers_eq turn.at_ turn.request).symm.trans permitted

theorem World.possible_of_natural (natural : w.natural prog p call r = true) : w.possible prog p call r = true := by
  simp [World.possible, natural]

/-- A running process whose call has a natural reply that the rule lets through can
make a step. -/
theorem step_of_natural (found : w.procs[index]? = some p) (running : p.status = .running)
    (request : prog.request p.locals = some call) (natural : w.natural prog p call r = true) :
    step prog w ⟨index, r⟩ = some (w.answer prog index p call r) :=
  step_of_turn ⟨found, running, request, World.possible_of_natural natural⟩

def CanStep (prog : Program L) (allowed : World L → Label → Prop) (w : World L) : Prop :=
  ∃ label, allowed w label ∧ (step prog w label).isSome = true

theorem canStep_of_natural (found : w.procs[index]? = some p) (running : p.status = .running)
    (request : prog.request p.locals = some call) (natural : w.natural prog p call r = true)
    (holds : rule w index p call r = true) : CanStep prog (Obeys prog rule) w :=
  ⟨⟨index, r⟩, (answers_eq found request).trans holds, by rw [step_of_natural found running request natural]; rfl⟩

theorem not_blockedForever (found : w.procs[index]? = some p) (running : p.status = .running)
    (request : prog.request p.locals = some call) (natural : w.natural prog p call r = true)
    (holds : rule w index p call r = true) {waiting : Call → Bool} :
    ¬ BlockedForever prog (Obeys prog rule) waiting index w := by
  intro forever
  obtain ⟨q, other, same, -, asked, -, none⟩ := forever w (.refl w)
  have stuck := none r ((answers_eq found request).trans holds)
  rw [step_of_natural found running request natural] at stuck
  contradiction

theorem blockedForever_of_stuck {waiting : Call → Bool} (found : w.procs[index]? = some p)
    (running : p.status = .running) (request : prog.request p.locals = some call) (waits : waiting call = true)
    (stuck : ∀ label, allowed w label → step prog w label = none) :
    BlockedForever prog allowed waiting index w :=
  Always.of_stuck stuck ⟨p, call, found, running, request, waits, fun r => stuck ⟨index, r⟩⟩

/-- In a pair, the one that is gone and the one that waits are different processes. -/
theorem not_leftBehind_of_pair {c : Proc L} {waiting : Call → Bool} (procs : w.procs = [p, c])
    (first : c.finished prog = true → ¬ BlockedForever prog allowed waiting 0 w)
    (second : p.finished prog = true → ¬ BlockedForever prog allowed waiting 1 w) :
    ¬ LeftBehind prog allowed waiting w := by
  intro leftBehind
  obtain ⟨gone, left, ⟨q, foundGone, ceased⟩, forever⟩ := leftBehind
  obtain ⟨q', call, found, running, asked, -, -⟩ := forever w (.refl w)
  have alive := not_finished running asked
  rw [procs] at found foundGone
  match gone, left with
  | 0, 0 =>
      obtain rfl := Option.some.inj (foundGone.symm.trans found)
      rw [alive] at ceased
      contradiction
  | 0, 1 =>
      obtain rfl : p = q := Option.some.inj foundGone
      exact second ceased forever
  | 1, 0 =>
      obtain rfl : c = q := Option.some.inj foundGone
      exact first ceased forever
  | 1, 1 =>
      obtain rfl := Option.some.inj (foundGone.symm.trans found)
      rw [alive] at ceased
      contradiction
  | gone + 2, _ => simp at foundGone
  | 0, left + 2 => simp at found
  | 1, left + 2 => simp at found

theorem not_leftBehind_of_single {waiting : Call → Bool} (procs : w.procs = [p]) :
    ¬ LeftBehind prog allowed waiting w := by
  intro leftBehind
  obtain ⟨gone, left, ⟨q, foundGone, ceased⟩, forever⟩ := leftBehind
  obtain ⟨q', call, found, running, asked, -, -⟩ := forever w (.refl w)
  have alive := not_finished running asked
  rw [procs] at found foundGone
  match gone, left with
  | 0, 0 =>
      obtain rfl := Option.some.inj (foundGone.symm.trans found)
      rw [alive] at ceased
      contradiction
  | gone + 1, _ => simp at foundGone
  | 0, left + 1 => simp at found

theorem stuck_of_finished (found : w.procs[index]? = some p) (finished : p.finished prog = true) :
    step prog w ⟨index, r⟩ = none := by
  cases stepped : step prog w ⟨index, r⟩ with
  | none => rfl
  | some next =>
      obtain ⟨q, call, turn, -⟩ := step_eq_some.mp stepped
      obtain rfl := Option.some.inj (found.symm.trans turn.at_)
      simp [Proc.finished, turn.running, turn.request] at finished

/-! ## Pipes whose both ends the reader holds -/

theorem World.held_of_holds {h : Handle} (found : w.procs[index]? = some p) (holds : p.holds prog h = true) :
    w.held prog h = true :=
  List.any_eq_true.mpr ⟨p, List.mem_of_getElem? found, holds⟩

theorem Turn.holds {h : Handle} (turn : Turn prog w index p call r) (holds : h ∈ p.handles) :
    p.holds prog h = true := by
  simp [Proc.holds, Proc.finished, turn.running, turn.request, holds]

/-- A process that holds the write end itself never sees the end of the pipe: its
`read` returns a byte that is there. -/
theorem Turn.read_one (turn : Turn prog w index p (.read (some (.readEnd pipe))) r)
    (natural : w.natural prog p (.read (some (.readEnd pipe))) r = true)
    (readEnd : Handle.readEnd pipe ∈ p.handles) (writeEnd : Handle.writeEnd pipe ∈ p.handles) :
    r = .size 1 ∧ 0 < w.pipe pipe := by
  have open_ := World.held_of_holds turn.at_ (turn.holds writeEnd)
  cases r with
  | size n =>
      by_cases available : 0 < w.pipe pipe
      · simp [World.natural, readEnd, available] at natural
        simp [natural, available]
      · simp [World.natural, readEnd, available, open_] at natural
  | _ => simp [World.natural, readEnd] at natural

theorem Turn.write_one (natural : w.natural prog p (.write (some (.writeEnd pipe))) r = true)
    (writeEnd : Handle.writeEnd pipe ∈ p.handles) : r = .size 1 ∧ w.pipe pipe < pipeCapacity := by
  cases r with
  | size n => simpa [World.natural, writeEnd] using natural
  | _ => simp [World.natural, writeEnd] at natural

theorem ok_of_bind {fd : Fd} (natural : w.natural prog p (.bind fd) r = true) (socket : fd ≠ none) : r = .ok := by
  cases fd with
  | none => contradiction
  | some h => cases r <;> simp [World.natural] at natural ⊢

theorem ok_of_listen {fd : Fd} (natural : w.natural prog p (.listen fd) r = true) (socket : fd ≠ none) : r = .ok := by
  cases fd with
  | none => contradiction
  | some h => cases r <;> simp [World.natural] at natural ⊢

theorem ok_of_connect {fd : Fd} (natural : w.natural prog p (.connect fd) r = true) (socket : fd ≠ none)
    (listening : w.listening = true) : r = .ok := by
  cases fd with
  | none => contradiction
  | some h => cases r <;> simp [World.natural, listening] at natural ⊢

theorem handle_of_accept {fd : Fd} (natural : w.natural prog p (.accept fd) r = true) (socket : fd ≠ none) :
    ∃ h, r = .handle h := by
  cases fd with
  | none => contradiction
  | some h => cases r <;> simp [World.natural] at natural ⊢

theorem size_of_recv {fd : Fd} {size : Nat} (natural : w.natural prog p (.recv fd size) r = true)
    (socket : fd ≠ none) (available : 0 < w.queue) : r = .size (min size w.queue) := by
  cases fd with
  | none => contradiction
  | some h =>
      cases r <;> simp [World.natural, available] at natural
      · omega
      · rw [natural]

theorem natural_read (readEnd : Handle.readEnd pipe ∈ p.handles) (available : 0 < w.pipe pipe) :
    w.natural prog p (.read (some (.readEnd pipe))) (.size 1) = true := by
  simp [World.natural, readEnd, available]

theorem natural_write (writeEnd : Handle.writeEnd pipe ∈ p.handles) (room : w.pipe pipe < pipeCapacity) :
    w.natural prog p (.write (some (.writeEnd pipe))) (.size 1) = true := by
  simp [World.natural, writeEnd, room]

theorem read_blocks (found : w.procs[index]? = some p)
    (request : prog.request p.locals = some (.read (some (.readEnd pipe)))) (empty : w.pipe pipe = 0)
    (readEnd : Handle.readEnd pipe ∈ p.handles) (writeEnd : Handle.writeEnd pipe ∈ p.handles)
    (natural : w.natural prog p (.read (some (.readEnd pipe))) r = true) :
    step prog w ⟨index, r⟩ = none := by
  cases stepped : step prog w ⟨index, r⟩ with
  | none => rfl
  | some next =>
      obtain ⟨q, call, turn, -⟩ := step_eq_some.mp stepped
      obtain rfl := Option.some.inj (found.symm.trans turn.at_)
      obtain rfl := Option.some.inj (request.symm.trans turn.request)
      have available := (turn.read_one natural readEnd writeEnd).2
      omega

theorem leftBehind_of_stuck {waiting : Call → Bool} (other : Nat) {q : Proc L} (found : w.procs[index]? = some p)
    (running : p.status = .running) (asked : prog.request p.locals = some call) (waits : waiting call = true)
    (stuck : ∀ r, rule w index p call r = true → step prog w ⟨index, r⟩ = none)
    (foundOther : w.procs[other]? = some q) (gone : q.finished prog = true)
    (nobody : ∀ i, i = index ∨ i = other ∨ w.procs[i]? = none) :
    LeftBehind prog (Obeys prog rule) waiting w := by
  refine ⟨other, index, ⟨q, foundOther, gone⟩, blockedForever_of_stuck found running asked waits ?_⟩
  intro label permitted
  obtain ⟨i, r⟩ := label
  rcases nobody i with rfl | rfl | none
  · exact stuck r ((answers_eq found asked).symm.trans permitted)
  · exact stuck_of_finished foundOther gone
  · simp [step, none]

theorem nobody_else {c : Proc L} (procs : w.procs = [p, c]) (i : Nat) : i = 0 ∨ i = 1 ∨ w.procs[i]? = none := by
  match i with
  | 0 => exact .inl rfl
  | 1 => exact .inr (.inl rfl)
  | i + 2 => exact .inr (.inr (by simp [procs]))

theorem not_natural_accept {h : Handle} (empty : w.backlog = 0) :
    w.natural prog p (.accept (some h)) r = false := by
  cases r <;> simp [World.natural, empty]

theorem natural_fork (prog : Program L) (w : World L) (p : Proc L) : ∃ n : Int, w.natural prog p .fork (.pid n) = true := by
  obtain ⟨bound, nonneg, above⟩ : ∃ bound : Int, 0 ≤ bound ∧ ∀ q ∈ w.procs, q.id ≤ bound := by
    induction w.procs with
    | nil => exact ⟨0, Int.le_refl 0, by simp⟩
    | cons q procs ih =>
        obtain ⟨bound, nonneg, above⟩ := ih
        refine ⟨max bound q.id, by omega, ?_⟩
        simp only [List.mem_cons, forall_eq_or_imp]
        exact ⟨by omega, fun other found => Int.le_trans (above other found) (by omega)⟩
  refine ⟨bound + 1, ?_⟩
  simp only [World.natural, Bool.and_eq_true, decide_eq_true_eq, List.all_eq_true, bne_iff_ne]
  exact ⟨by omega, fun q found => by have := above q found; omega⟩

theorem mem_chargeHandles {h : Handle} {handles : List Handle} (held : h ∈ handles)
    (keeps : ∀ fd, call ≠ .close fd) : h ∈ chargeHandles handles call r := by
  unfold chargeHandles
  split
  · simp [held]
  · exact absurd rfl (keeps _)
  · simp [held]
  · simp [held]
  · exact held

/-- `fds` is what `pipe` filled in, and both ends are still open. -/
structure OpenPipe (pipe : Nat) (fds : Fd × Fd) (handles : List Handle) : Prop where
  ends : fds = Fd.ends pipe
  readEnd : Handle.readEnd pipe ∈ handles
  writeEnd : Handle.writeEnd pipe ∈ handles

section

variable {fds : Fd × Fd} {handles : List Handle}

theorem OpenPipe.fst (open_ : OpenPipe pipe fds handles) : fds.1 = some (.readEnd pipe) := by
  rw [open_.ends, Fd.ends_fst]

theorem OpenPipe.snd (open_ : OpenPipe pipe fds handles) : fds.2 = some (.writeEnd pipe) := by
  rw [open_.ends, Fd.ends_snd]

theorem OpenPipe.charge (open_ : OpenPipe pipe fds handles) (keeps : ∀ fd, call ≠ .close fd) :
    OpenPipe pipe fds (chargeHandles handles call r) :=
  ⟨open_.ends, mem_chargeHandles open_.readEnd keeps, mem_chargeHandles open_.writeEnd keeps⟩

theorem OpenPipe.new (handles : List Handle) (pipe : Nat) :
    OpenPipe pipe (Fd.ends pipe) (chargeHandles handles (.pipe pipe) .ok) :=
  ⟨rfl, by simp [chargeHandles], by simp [chargeHandles]⟩

end

/-! ## Following a list of labels -/

/-- A machine on which a run of given labels starts. -/
def Machine.plain : Machine := ⟨1, by decide, 0, [0], 0, false⟩

/-- The world after the given labels, if each is a step that `rule` lets through. -/
def follow (prog : Program L) (rule : Rule L) (w : World L) : List Label → Option (World L)
  | [] => some w
  | label :: labels =>
      if answers prog rule w label then
        match step prog w label with
        | none => none
        | some next => follow prog rule next labels
      else none

/-- The steps that the labels take, from `w` on. -/
def trail (prog : Program L) (w : World L) : List Label → List (World L × Label)
  | [] => []
  | label :: labels =>
      match step prog w label with
      | none => []
      | some next => (w, label) :: trail prog next labels

theorem follow_run {start w' : World L} {trace : List (World L × Label)} {labels : List Label}
    (run : Run (step prog) (Obeys prog rule) start trace w) (followed : follow prog rule w labels = some w') :
    Run (step prog) (Obeys prog rule) start (trace ++ trail prog w labels) w' := by
  induction labels generalizing w trace with
  | nil =>
      obtain rfl := Option.some.inj followed
      simpa [trail] using run
  | cons label labels ih =>
      unfold follow at followed
      split at followed
      · split at followed
        · contradiction
        · rename_i next stepped
          have rest := ih (run.snoc ‹_› stepped) followed
          simpa only [trail, stepped, List.append_assoc, List.singleton_append] using rest
      · contradiction

theorem follow_reachable {start w' : World L} {labels : List Label}
    (reachable : Reachable (step prog) (Obeys prog rule) start w)
    (followed : follow prog rule w labels = some w') :
    Reachable (step prog) (Obeys prog rule) start w' := by
  obtain ⟨trace, run⟩ := reachable
  exact ⟨_, follow_run run followed⟩

end

end Oreo.Posix

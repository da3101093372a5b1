import WordMachine.Proofs.Sessions
import WordMachine.Proofs.SmallStep

namespace WordMachine

/-- A property of machines that no single change ends. -/
structure Machine.Invariant (I : Machine → Prop) : Prop where
  set : ∀ ⦃m⦄, I m → ∀ r value, I { m with registers := m.registers.set r value }
  setWordAt : ∀ ⦃m⦄, I m → ∀ offset w, I { m with memory := m.memory.setWordAt offset w }
  reset : ∀ ⦃m⦄, I m → I { m with registers := m.registers.reset }
  clear : ∀ ⦃m⦄, I m → I { m with memory := m.memory.clear }

namespace Machine.Invariant

variable {I : Machine → Prop} (h : Invariant I) {m : Machine} (hm : I m)
include h hm

theorem apply (e : Effect) : I (e.apply m) := by
  cases e with
  | set r value => exact h.set hm r value
  | store offset value => exact h.setWordAt hm offset value
  | branch target => exact hm
  | pass => exact hm

theorem execute (i : Instruction) (operands : List Word) : I (i.execute operands m).state := by
  cases he : i.effect operands m with
  | error t =>
    rw [Instruction.execute_of_trap he]
    exact hm
  | ok e =>
    rw [Instruction.execute_of_effect he]
    exact h.apply hm e

omit hm in
theorem resume (p : Program) (fuel : Nat) {r : Program.Progress} (hr : I r.machine) :
    I (p.resume fuel r).state := by
  induction fuel generalizing r with
  | zero => exact hr
  | succ fuel ih =>
    cases p.turn r with
    | outside nothing =>
      rw [Program.resume_outside _ nothing]
      exact hr
    | failed found failure =>
      rw [Program.resume_error _ found failure]
      exact hr
    | @last s _ found done nowhere =>
      rw [Program.resume_last _ found done nowhere]
      exact h.execute hr s.instruction s.operands
    | @further s _ _ found done place =>
      rw [Program.resume_on _ found done place]
      exact ih (h.execute hr s.instruction s.operands)

theorem setRegister (index value : Word) : I (Work.setRegister index value m).state := by
  simp only [Work.setRegister, Registers.write]
  cases Register.ofIndex index with
  | error e => exact hm
  | ok r => exact h.set hm r value

theorem setWord (address value : Word) : I (Work.setWord address value m).state := by
  cases hl : m.memory.locate address with
  | error e =>
    rw [Work.setWord_error hl]
    exact hm
  | ok offset =>
    rw [Work.setWord_ok hl]
    exact h.setWordAt hm offset value

theorem writeAll (address : Word) (ws : List Word) :
    I { m with memory := (m.memory.writeAll address ws).state } := by
  induction ws generalizing m address with
  | nil => exact hm
  | cons w ws ih =>
    cases hl : m.memory.locate address with
    | error e =>
      rw [Memory.writeAll_cons_of_error hl]
      exact hm
    | ok offset =>
      rw [Memory.writeAll_cons_of_ok hl]
      exact ih (h.setWordAt hm offset w) (address + 4)

theorem load (address : Word) (ws : List Word) : I (m.load address ws).state := by
  rw [load_state]
  exact h.writeAll hm address ws

theorem perform (call : Call) : I (call.perform m).state := by
  cases call with
  | setRegister index value => exact h.setRegister hm index value
  | register index => exact hm
  | word address => exact hm
  | setWord address value => exact h.setWord hm address value
  | load address words => exact h.load hm address words
  | clear => exact h.clear hm
  | reset => exact h.clear (h.reset hm)
  | execute i operands => exact h.execute hm i operands
  | run p maxSteps => exact h.resume p maxSteps hm

theorem after (calls : List Call) : I (m.after calls) := by
  induction calls generalizing m with
  | nil => exact hm
  | cons call rest ih => exact ih (h.perform hm call)

end Machine.Invariant

namespace Machine

/-- What of its configuration a machine shows: all but the contents. -/
structure BuiltAs (c : Config) (m : Machine) : Prop where
  zero : m.registers.zero = c.zero
  base : m.memory.base = c.base
  size : m.memory.size = c.size
  order : m.memory.order = c.order

theorem builtAs_ofConfig (c : Config) : (ofConfig c).BuiltAs c where
  zero := rfl
  base := rfl
  size := by simp [ofConfig, Memory.init, Memory.size]
  order := rfl

theorem invariant_builtAs (c : Config) : Invariant (BuiltAs c) where
  set := by
    intro m h r value
    exact ⟨by rw [Registers.zero_set, h.zero], h.base, h.size, h.order⟩
  setWordAt := by
    intro m h offset w
    exact ⟨h.zero, h.base, by rw [Memory.size_setWordAt, h.size], h.order⟩
  reset := by
    intro m h
    exact ⟨h.zero, h.base, h.size, h.order⟩
  clear := by
    intro m h
    exact ⟨h.zero, h.base, by simpa [Memory.clear, Memory.init, Memory.size] using h.size, h.order⟩

theorem builtAs_after (c : Config) (calls : List Call) : ((ofConfig c).after calls).BuiltAs c :=
  (invariant_builtAs c).after (builtAs_ofConfig c) calls

/-- What a machine was built as is all that remains of it when it is reset. -/
theorem builtAs_iff_reset {c : Config} {m : Machine} : m.BuiltAs c ↔ m.reset = ofConfig c := by
  constructor
  · rintro ⟨hzero, hbase, hsize, horder⟩
    rw [reset, Registers.reset, Memory.clear, hzero, hbase, hsize, horder, ofConfig]
  · intro h
    exact {
      zero := congrArg (·.registers.zero) h
      base := congrArg (·.memory.base) h
      size := by
        have hsize := congrArg (·.memory.size) h
        simpa [reset, ofConfig, Memory.clear, Memory.init, Memory.size] using hsize
      order := congrArg (·.memory.order) h }

/-- After any session, with errors or without, resetting gives back the machine that was built. A
program runs on it as on a new one, and what follows a reset within a session is a session of its
own. -/
theorem reset_undoes_sessions (c : Config) (calls : List Call) :
    ((ofConfig c).after calls).reset = ofConfig c ∧
      (∀ (p : Program) (maxSteps : Nat),
        p.run ((ofConfig c).after calls).reset maxSteps = p.run (ofConfig c) maxSteps) ∧
      ∀ later : List Call,
        (ofConfig c).after (calls ++ .reset :: later) = (ofConfig c).after later ∧
          (ofConfig c).replies (calls ++ .reset :: later) =
            (ofConfig c).replies calls ++ (.ok .done, []) :: (ofConfig c).replies later := by
  have hreset : ((ofConfig c).after calls).reset = ofConfig c :=
    builtAs_iff_reset.mp (builtAs_after c calls)
  refine ⟨hreset, fun p maxSteps => by rw [hreset], fun later => ⟨?_, ?_⟩⟩
  · rw [after_append, after, Call.perform, hreset]
  · rw [replies_append, replies, Call.perform, hreset]

end Machine

end WordMachine

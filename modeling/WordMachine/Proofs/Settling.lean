import Mathlib.Data.List.Basic
import WordMachine.Proofs.Effects

namespace WordMachine

namespace Machine

/-- The index is a register's number, and the register has this value. -/
def Holds (m : Machine) (index value : Word) : Prop :=
  ∃ r : Register, index.toNat = r.val ∧ m.registers.get r = value

theorem register_eq_ok_iff {m : Machine} {index value : Word} :
    m.register index = .ok value ↔ m.Holds index value := by
  unfold register Registers.read Holds
  rw [mapError_eq_ok_iff]
  cases hr : Register.ofIndex index with
  | error e =>
    constructor
    · intro h
      cases h
    · rintro ⟨r, hn, -⟩
      rw [Register.ofIndex_eq_ok_iff.mpr hn] at hr
      cases hr
  | ok r =>
    have hn := Register.ofIndex_eq_ok_iff.mp hr
    constructor
    · intro h
      exact ⟨r, hn, Except.ok.inj h⟩
    · rintro ⟨s, hs, rfl⟩
      obtain rfl : r = s := Fin.ext (hn.symm.trans hs)
      rfl

theorem locate_eq_ok_iff {m : Machine} {base displacement : Word} {offset : Nat} :
    m.locate base displacement = .ok offset ↔
      ∃ start, m.Holds base start ∧
        m.memory.locate (start + displacement.signExtendLow) = .ok offset := by
  simp only [locate, except_bind_ok, mapError_eq_ok_iff, register_eq_ok_iff]

end Machine

theorem destination_eq_ok_iff {index : Word} {r : Register} :
    destination index = .ok r ↔ index.toNat = r.val := by
  rw [destination, mapError_eq_ok_iff, Register.ofIndex_eq_ok_iff]

/-- The effect that an action settles on. Whatever the machine lacks for it is a trap. -/
inductive Action.Settles (m : Machine) : Action → List Word → Effect → Prop
  | binary {f : Word → Word → Word} {target first second a b : Word} {r : Register}
      (hfirst : m.Holds first a) (hsecond : m.Holds second b) (named : target.toNat = r.val) :
      Settles m (.binary f) [target, first, second] (.set r (f a b))
  | unary {f : Word → Word} {target source a : Word} {r : Register}
      (hsource : m.Holds source a) (named : target.toNat = r.val) :
      Settles m (.unary f) [target, source] (.set r (f a))
  | immediate {f : Word → Word → Word} {target source literal a : Word} {r : Register}
      (hsource : m.Holds source a) (named : target.toNat = r.val) :
      Settles m (.immediate f) [target, source, literal] (.set r (f a literal))
  | constant {f : Word → Word} {target literal : Word} {r : Register}
      (named : target.toNat = r.val) :
      Settles m (.constant f) [target, literal] (.set r (f literal))
  | load {f : Word → Word} {target base displacement start : Word} {offset : Nat} {r : Register}
      (hbase : m.Holds base start)
      (located : m.memory.locate (start + displacement.signExtendLow) = .ok offset)
      (named : target.toNat = r.val) :
      Settles m (.load f) [target, base, displacement] (.set r (f (m.memory.wordAt offset)))
  | store {source base displacement value start : Word} {offset : Nat}
      (hsource : m.Holds source value) (hbase : m.Holds base start)
      (located : m.memory.locate (start + displacement.signExtendLow) = .ok offset) :
      Settles m .store [source, base, displacement] (.store offset value)
  | taken {first second target a : Word} (hfirst : m.Holds first a) (hsecond : m.Holds second a) :
      Settles m .branch [first, second, target] (.branch target)
  | passed {first second target a b : Word} (hfirst : m.Holds first a)
      (hsecond : m.Holds second b) (hne : a ≠ b) :
      Settles m .branch [first, second, target] .pass

theorem Action.length_of_effect {a : Action} {m : Machine} {operands : List Word} {e : Effect}
    (h : a.effect m operands = .ok e) : operands.length = a.arity := by
  by_contra hl
  rw [(a.effect_eq_operandCount_iff m operands).mpr hl] at h
  cases h

theorem Action.settles_of_effect {a : Action} {m : Machine} {operands : List Word} {e : Effect}
    (h : a.effect m operands = .ok e) : a.Settles m operands e := by
  have hl := length_of_effect h
  cases a with
  | binary f =>
    obtain ⟨target, first, second, rfl⟩ := List.length_eq_three.mp hl
    simp only [effect, except_bind_ok, Machine.register_eq_ok_iff, destination_eq_ok_iff] at h
    obtain ⟨x, hx, y, hy, r, hr, he⟩ := h
    cases he
    exact .binary hx hy hr
  | unary f =>
    obtain ⟨target, source, rfl⟩ := List.length_eq_two.mp hl
    simp only [effect, except_bind_ok, Machine.register_eq_ok_iff, destination_eq_ok_iff] at h
    obtain ⟨x, hx, r, hr, he⟩ := h
    cases he
    exact .unary hx hr
  | immediate f =>
    obtain ⟨target, source, literal, rfl⟩ := List.length_eq_three.mp hl
    simp only [effect, except_bind_ok, Machine.register_eq_ok_iff, destination_eq_ok_iff] at h
    obtain ⟨x, hx, r, hr, he⟩ := h
    cases he
    exact .immediate hx hr
  | constant f =>
    obtain ⟨target, literal, rfl⟩ := List.length_eq_two.mp hl
    simp only [effect, except_bind_ok, destination_eq_ok_iff] at h
    obtain ⟨r, hr, he⟩ := h
    cases he
    exact .constant hr
  | load f =>
    obtain ⟨target, base, displacement, rfl⟩ := List.length_eq_three.mp hl
    simp only [effect, except_bind_ok, Machine.locate_eq_ok_iff, destination_eq_ok_iff] at h
    obtain ⟨offset, ⟨start, hs, ho⟩, r, hr, he⟩ := h
    cases he
    exact .load hs ho hr
  | store =>
    obtain ⟨source, base, displacement, rfl⟩ := List.length_eq_three.mp hl
    simp only [effect, except_bind_ok, Machine.register_eq_ok_iff, Machine.locate_eq_ok_iff] at h
    obtain ⟨x, hx, offset, ⟨start, hs, ho⟩, he⟩ := h
    cases he
    exact .store hx hs ho
  | branch =>
    obtain ⟨first, second, target, rfl⟩ := List.length_eq_three.mp hl
    simp only [effect, except_bind_ok, Machine.register_eq_ok_iff] at h
    obtain ⟨x, hx, y, hy, he⟩ := h
    cases he
    split
    · rename_i heq
      exact .taken hx (heq ▸ hy)
    · rename_i hne
      exact .passed hx hy hne

theorem Action.Settles.effect {a : Action} {m : Machine} {operands : List Word} {e : Effect}
    (h : a.Settles m operands e) : a.effect m operands = .ok e := by
  cases h with
  | binary hfirst hsecond named =>
    simp only [Action.effect, Machine.register_eq_ok_iff.mpr hfirst,
      Machine.register_eq_ok_iff.mpr hsecond, destination_eq_ok_iff.mpr named]
    rfl
  | unary hsource named =>
    simp only [Action.effect, Machine.register_eq_ok_iff.mpr hsource,
      destination_eq_ok_iff.mpr named]
    rfl
  | immediate hsource named =>
    simp only [Action.effect, Machine.register_eq_ok_iff.mpr hsource,
      destination_eq_ok_iff.mpr named]
    rfl
  | constant named =>
    simp only [Action.effect, destination_eq_ok_iff.mpr named]
    rfl
  | load hbase located named =>
    simp only [Action.effect, Machine.locate_eq_ok_iff.mpr ⟨_, hbase, located⟩,
      destination_eq_ok_iff.mpr named]
    rfl
  | store hsource hbase located =>
    simp only [Action.effect, Machine.register_eq_ok_iff.mpr hsource,
      Machine.locate_eq_ok_iff.mpr ⟨_, hbase, located⟩]
    rfl
  | taken hfirst hsecond =>
    simp only [Action.effect, Machine.register_eq_ok_iff.mpr hfirst,
      Machine.register_eq_ok_iff.mpr hsecond]
    exact congrArg Except.ok (if_pos rfl)
  | passed hfirst hsecond hne =>
    simp only [Action.effect, Machine.register_eq_ok_iff.mpr hfirst,
      Machine.register_eq_ok_iff.mpr hsecond]
    exact congrArg Except.ok (if_neg hne)

theorem Action.effect_eq_ok_iff {a : Action} {m : Machine} {operands : List Word} {e : Effect} :
    a.effect m operands = .ok e ↔ a.Settles m operands e :=
  ⟨Action.settles_of_effect, Action.Settles.effect⟩

theorem Instruction.execute_eq_ok_iff {i : Instruction} {operands : List Word} {m m' : Machine}
    {flow : Flow} :
    (i.execute operands m).result = .ok flow ∧ (i.execute operands m).state = m' ↔
      ∃ e, i.operation.action.Settles m operands e ∧ e.flow = flow ∧ e.apply m = m' := by
  simp only [← Action.effect_eq_ok_iff]
  cases he : i.effect operands m with
  | error t =>
    rw [execute_of_trap he]
    rw [effect] at he
    simp [he]
  | ok e =>
    rw [execute_of_effect he]
    rw [effect] at he
    simp [he]

end WordMachine

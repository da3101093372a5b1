import WordMachine.Proofs.Footprint
import WordMachine.Proofs.Transcript

namespace WordMachine

namespace Statement

def target? (s : Statement) : Option Word := s.instruction.operation.action.target? s.operands

def sources (s : Statement) : List Word := s.instruction.operation.action.sources s.operands

def Accesses (s : Statement) (m : Machine) (address : Word) : Prop :=
  (s.instruction.operation = .ld ∨ s.instruction.operation = .loaded ∨
    s.instruction.operation = .st) ∧ m.Addresses s.operands address

/-- Neither statement writes a register that the other reads or writes. If one of them is a store,
the other accesses no word at the same address. -/
structure Independent (m : Machine) (s t : Statement) : Prop where
  targets : ∀ index ∈ s.target?, index ∉ t.target?
  spared : ∀ index ∈ s.target?, index ∉ t.sources
  kept : ∀ index ∈ t.target?, index ∉ s.sources
  words : s.instruction.operation = .st ∨ t.instruction.operation = .st →
    ∀ address, s.Accesses m address → ¬ t.Accesses m address

def effect (s : Statement) (m : Machine) : Except Trap Effect := s.instruction.effect s.operands m

/-- Both statements succeed, the second on the machine that the first one leaves. -/
def SucceedThen (m : Machine) (s t : Statement) : Prop :=
  (Execution.mk s m).Succeeds ∧ (Execution.mk t (s.execute m).state).Succeeds

variable {m : Machine} {s t : Statement} {e f : Effect}

theorem accesses_of_store {offset : Nat} {value : Word}
    (h : s.effect m = .ok (.store offset value)) :
    s.instruction.operation = .st ∧
      ∃ address, s.Accesses m address ∧ m.memory.locate address = .ok offset := by
  obtain ⟨haction, address, haddress, hl⟩ := Action.address_of_store h
  have ho := Operation.action_eq_store_iff.mp haction
  exact ⟨ho, address, ⟨.inr (.inr ho), haddress⟩, hl⟩

theorem Independent.symm (h : Independent m s t) : Independent m t s where
  targets := fun index ht hs => h.targets index hs ht
  spared := h.kept
  kept := h.spared
  words := fun hstore address ht hs => h.words hstore.symm address hs ht

/-- What one of them changes, the other does not look at. -/
theorem Independent.effect_apply (h : Independent m s t) (he : s.effect m = .ok e) :
    t.effect (e.apply m) = t.effect m := by
  symm
  apply Action.effect_congr
  case register =>
    intro index hi
    refine Machine.register_congr fun r hr => ?_
    cases e with
    | set q value =>
      obtain ⟨target, htarget, hq⟩ := Action.target_of_set he
      refine (Registers.get_set_of_ne _ ?_ value).symm
      rintro rfl
      exact h.spared target htarget (BitVec.eq_of_toNat_eq (hq.trans hr.symm) ▸ hi)
    | store offset value => rw [Effect.apply]
    | branch target => rw [Effect.apply]
    | pass => rw [Effect.apply]
  case base => cases e <;> simp [Effect.apply]
  case size => cases e <;> simp [Effect.apply]
  case read =>
    intro g hload address haddress
    cases e with
    | set q value => rw [Effect.apply]
    | store offset value =>
      obtain ⟨hstore, place, hplace, hl⟩ := accesses_of_store he
      have hne : address ≠ place := by
        rintro rfl
        refine h.words (.inl hstore) address hplace ⟨?_, haddress⟩
        rcases Operation.of_action_eq_load hload with ho | ho
        · exact .inl ho
        · exact .inr (.inl ho)
      rw [Effect.apply, Memory.read_setWordAt hl, if_neg hne]
    | branch target => rw [Effect.apply]
    | pass => rw [Effect.apply]

theorem Independent.apply_comm (h : Independent m s t) (he : s.effect m = .ok e)
    (hf : t.effect m = .ok f) : f.apply (e.apply m) = e.apply (f.apply m) := by
  cases e with
  | set r v =>
    cases f with
    | set q w =>
      obtain ⟨target, htarget, hr⟩ := Action.target_of_set he
      obtain ⟨target', htarget', hq⟩ := Action.target_of_set hf
      have hne : r ≠ q := by
        rintro rfl
        exact h.targets target htarget (BitVec.eq_of_toNat_eq (hr.trans hq.symm) ▸ htarget')
      simp only [Effect.apply]
      rw [Registers.set_comm _ hne]
    | store j w => simp only [Effect.apply]
    | branch target => simp only [Effect.apply]
    | pass => simp only [Effect.apply]
  | store i v =>
    cases f with
    | set q w => simp only [Effect.apply]
    | store j w =>
      obtain ⟨hstore, address, haddress, hi⟩ := accesses_of_store he
      obtain ⟨-, address', haddress', hj⟩ := accesses_of_store hf
      have hne : i ≠ j := by
        rintro rfl
        exact h.words (.inl hstore) address haddress (Memory.locate_inj hi hj ▸ haddress')
      simp only [Effect.apply]
      rw [Memory.setWordAt_comm _ v w (Memory.locate_eq_ok_iff.mp hi).2.2
        (Memory.locate_eq_ok_iff.mp hj).2.2 (Memory.locate_apart hi hj hne)]
    | branch target => simp only [Effect.apply]
    | pass => simp only [Effect.apply]
  | branch target => cases f <;> simp only [Effect.apply]
  | pass => cases f <;> simp only [Effect.apply]

theorem result_of_effect (h : s.effect m = .ok e) : (s.execute m).result = .ok e.flow :=
  congrArg Outcome.result (Instruction.execute_of_effect h)

theorem result_of_trap {trap : Trap} (h : s.effect m = .error trap) :
    (s.execute m).result = .error (s.instruction.explain s.operands trap) :=
  congrArg Outcome.result (Instruction.execute_of_trap h)

theorem state_of_effect (h : s.effect m = .ok e) : (s.execute m).state = e.apply m :=
  congrArg Outcome.state (Instruction.execute_of_effect h)

theorem state_of_trap {trap : Trap} (h : s.effect m = .error trap) : (s.execute m).state = m :=
  congrArg Outcome.state (Instruction.execute_of_trap h)

theorem Independent.effect_after (h : Independent m s t) :
    t.effect (s.execute m).state = t.effect m := by
  cases he : s.effect m with
  | error trap => rw [state_of_trap he]
  | ok e => rw [state_of_effect he, h.effect_apply he]

theorem Independent.result_after (h : Independent m s t) :
    (t.execute (s.execute m).state).result = (t.execute m).result := by
  cases hf : t.effect m with
  | error trap => rw [result_of_trap hf, result_of_trap (h.effect_after.trans hf)]
  | ok f => rw [result_of_effect hf, result_of_effect (h.effect_after.trans hf)]

theorem Independent.state_comm (h : Independent m s t) :
    (t.execute (s.execute m).state).state = (s.execute (t.execute m).state).state := by
  have ht := h.effect_after
  have hs := h.symm.effect_after
  cases he : s.effect m with
  | error trap => rw [state_of_trap he, state_of_trap (hs.trans he)]
  | ok e =>
    cases hf : t.effect m with
    | error trap => rw [state_of_trap hf, state_of_trap (ht.trans hf)]
    | ok f =>
      rw [state_of_effect (ht.trans hf), state_of_effect (hs.trans he), state_of_effect he,
        state_of_effect hf, h.apply_comm he hf]

/-- Independent statements succeed one after the other in one order exactly if they do in the other,
and exactly if each succeeds alone. Both orders leave the same machine. -/
theorem independent_commute (h : Independent m s t) :
    (SucceedThen m s t ↔ SucceedThen m t s) ∧
    (SucceedThen m s t ↔ (Execution.mk s m).Succeeds ∧ (Execution.mk t m).Succeeds) ∧
    (t.execute (s.execute m).state).state = (s.execute (t.execute m).state).state := by
  have halone {s t : Statement} (h : Independent m s t) :
      SucceedThen m s t ↔ (Execution.mk s m).Succeeds ∧ (Execution.mk t m).Succeeds := by
    simp only [SucceedThen, Execution.Succeeds, Execution.outcome, h.result_after]
  refine ⟨?_, halone h, h.state_comm⟩
  rw [halone h, halone h.symm, and_comm]

/-- A store and a load of the word after it. The base register of both is the same. -/
theorem independent_commute_neighbours :
    ∃ (m : Machine) (s t : Statement), Independent m s t ∧ SucceedThen m t s ∧
      s.instruction.operation = .st ∧ t.instruction.operation = .ld ∧
      (t.execute (s.execute m).state).state = (s.execute (t.execute m).state).state ∧
      (s.execute (t.execute m).state).state.memory.bytes = #[7, 0, 0, 0, 5, 0, 0, 0] ∧
      (s.execute (t.execute m).state).state.registers.get 2 = 5 := by
  let m : Machine :=
    ⟨(Registers.init .hardwired).set 1 7, ⟨0, .little, #[1, 2, 3, 4, 5, 0, 0, 0]⟩⟩
  let s : Statement := ⟨.st, [1, 0, 0]⟩
  let t : Statement := ⟨.ld, [2, 0, 4]⟩
  have hs : m.Addresses s.operands 0 := ⟨0, 0, 0, rfl, rfl, ⟨0, rfl, rfl⟩, rfl⟩
  have ht : m.Addresses t.operands 4 := ⟨0, 4, 0, rfl, rfl, ⟨0, rfl, rfl⟩, rfl⟩
  have h : Independent m s t := {
    targets := nofun
    spared := nofun
    kept := by
      rintro index ⟨⟩
      change (2 : Word) ∉ [(1 : Word), 0]
      decide
    words := by
      rintro - address ⟨-, h0⟩ ⟨-, h4⟩
      obtain rfl := hs.unique h0
      exact absurd (ht.unique h4) (by decide) }
  obtain ⟨hboth, halone, hstate⟩ := independent_commute h
  have hstore : (s.execute m).result = .ok .next := by
    unfold s m
    rfl
  have hload : (t.execute m).result = .ok .next := by
    unfold t m
    rfl
  have hsucceed : SucceedThen m s t := halone.mpr ⟨⟨.next, hstore⟩, ⟨.next, hload⟩⟩
  refine ⟨m, s, t, h, hboth.mp hsucceed, rfl, rfl, hstate, ?_, ?_⟩
  · unfold s t m
    rfl
  · unfold s t m
    rfl

end Statement

end WordMachine

import Mathlib.Logic.ExistsUnique
import WordMachine.Proofs.FirstFailure
import WordMachine.Proofs.Packing

namespace WordMachine

namespace Word

theorem toInt_signExtendLow_eq_iff {v : Word} {n : Int} :
    v.signExtendLow.toInt = n ↔
      -0x8000 ≤ n ∧ n ≤ 0x7fff ∧ n % 0x10000 = v.toInt % 0x10000 := by
  rw [toInt_signExtendLow, Int.bmod_def]
  split
  all_goals
    constructor
    · rintro rfl
      omega
    · omega

theorem setWidth_signExtendLow (v : Word) : v.signExtendLow.setWidth 16 = v.setWidth 16 := by
  apply BitVec.eq_of_getLsbD_eq
  intro bit hb
  have hw : bit < 32 := by omega
  rw [signExtendLow, BitVec.getLsbD_setWidth, BitVec.getLsbD_signExtend]
  simp [hb, hw]

theorem signExtendLow_eq_iff {v w : Word} :
    v.signExtendLow = w.signExtendLow ↔ v.setWidth 16 = w.setWidth 16 := by
  constructor
  · intro h
    rw [← setWidth_signExtendLow v, h, setWidth_signExtendLow]
  · exact signExtendLow_congr

theorem signExtendLow_idem (v : Word) : v.signExtendLow.signExtendLow = v.signExtendLow := by
  apply BitVec.eq_of_toInt_eq
  obtain ⟨hlow, hhigh, -⟩ := toInt_signExtendLow_eq_iff.mp (Eq.refl v.signExtendLow.toInt)
  exact toInt_signExtendLow_eq_iff.mpr ⟨hlow, hhigh, rfl⟩

theorem eq_ofInt_iff {w : Word} {n : Int} :
    w = .ofInt 32 n ↔ (w.toNat : Int) % 0x100000000 = n % 0x100000000 := by
  rw [← BitVec.toNat_inj, BitVec.toNat_ofInt]
  omega

end Word

namespace Memory

variable {m : Memory} {a b : Word} {e : AddressError}

theorem read_eq_error_iff : m.read a = .error e ↔ m.locate a = .error e := by
  cases hl : m.locate a with
  | error e' =>
    rw [read_error hl, Except.error.injEq, Except.error.injEq]
  | ok offset =>
    rw [read_ok hl]
    simp

theorem locate_error_inj (ha : m.locate a = .error e) (hb : m.locate b = .error e) : a = b := by
  rcases locate_eq_error_iff.mp ha with ⟨-, rfl⟩ | ⟨-, -, rfl⟩ <;>
    rcases locate_eq_error_iff.mp hb with ⟨-, he⟩ | ⟨-, -, he⟩ <;> cases he <;> rfl

theorem locate_empty (address : Word) : ∃ e, (init 0 0 .little).locate address = .error e := by
  cases hl : (init 0 0 .little).locate address with
  | error e => exact ⟨e, rfl⟩
  | ok offset =>
    have hfits := (locate_eq_ok_iff.mp hl).2.2
    have hsize : (init 0 0 .little).size = 0 := rfl
    omega

end Memory

def Operation.AccessesMemory (o : Operation) : Prop := o = .ld ∨ o = .loaded ∨ o = .st

namespace Machine

/-- A load puts the word at an address into the register that its first operand names, for `loaded`
with the sign bit set. A store puts the contents of that register there. -/
inductive Transfers (m : Machine) (target address : Word) : Operation → Machine → Prop
  | ld {w : Word} {r : Register} {m' : Machine} (word : m.memory.read address = .ok w)
      (named : target.toNat = r.val) (set : m.SetsRegister r w m') :
      Transfers m target address .ld m'
  | loaded {w : Word} {r : Register} {m' : Machine} (word : m.memory.read address = .ok w)
      (named : target.toNat = r.val) (set : m.SetsRegister r (w ||| 0x80000000) m') :
      Transfers m target address .loaded m'
  | st {value : Word} {m' : Machine} (source : m.Holds target value)
      (set : m.SetsWord address value m') : Transfers m target address .st m'

/-- Whatever memory there is, each load and each store with this base and displacement succeeds
exactly as a transfer of the word at this address, and reports this address exactly if there is no
such word. A store has looked at its source before. -/
structure Reaches (m : Machine) (base displacement address : Word) : Prop where
  succeeds {i : Instruction} (memory : Memory) (target : Word) (flow : Flow) (m' : Machine)
    (access : i.operation.AccessesMemory) :
    (i.execute [target, base, displacement] { m with memory }).result = .ok flow ∧
      (i.execute [target, base, displacement] { m with memory }).state = m' ↔
      flow = .next ∧ { m with memory }.Transfers target address i.operation m'
  reports {i : Instruction} (memory : Memory) (target : Word) (mnemonic : String)
    (listed : List Word) (cause : AddressError) (access : i.operation.AccessesMemory) :
    (i.execute [target, base, displacement] { m with memory }).result =
        .error (.address mnemonic listed cause) ↔
      mnemonic = i.mnemonic ∧ listed = [target, base, displacement] ∧
        memory.read address = .error cause ∧
        (i.operation = .st → ∃ value, m.Holds target value)

variable {m : Machine} {base displacement start : Word}

theorem succeeds_iff {i : Instruction} (h : m.Holds base start) {target : Word} {flow : Flow}
    {m' : Machine} (access : i.operation.AccessesMemory) :
    (i.execute [target, base, displacement] m).result = .ok flow ∧
      (i.execute [target, base, displacement] m).state = m' ↔
      flow = .next ∧ m.Transfers target (start + displacement.signExtendLow) i.operation m' := by
  rw [Instruction.execute_eq_ok_iff]
  generalize i.operation = o at access
  constructor
  · rintro ⟨e, he, rfl, rfl⟩
    rcases access with rfl | rfl | rfl
    · cases he with
      | load hs located named =>
        obtain rfl := h.unique hs
        exact ⟨rfl, .ld (Memory.read_ok located) named (setsRegister_iff.mpr rfl)⟩
    · cases he with
      | load hs located named =>
        obtain rfl := h.unique hs
        exact ⟨rfl, .loaded (Memory.read_ok located) named (setsRegister_iff.mpr rfl)⟩
    · cases he with
      | store ht hs located =>
        obtain rfl := h.unique hs
        exact ⟨rfl, .st ht (setsWord_iff.mpr ⟨_, located, rfl⟩)⟩
  · rintro ⟨rfl, ht⟩
    cases ht with
    | ld word named set =>
      obtain ⟨offset, located, rfl⟩ := Memory.read_eq_ok_iff.mp word
      exact ⟨_, .load h located named, rfl, setsRegister_iff.mp set⟩
    | loaded word named set =>
      obtain ⟨offset, located, rfl⟩ := Memory.read_eq_ok_iff.mp word
      exact ⟨_, .load h located named, rfl, setsRegister_iff.mp set⟩
    | st source set =>
      obtain ⟨offset, located, rfl⟩ := setsWord_iff.mp set
      exact ⟨_, .store source h located, rfl, rfl⟩

theorem register_ne_address (m : Machine) (index : Word) (cause : AddressError) :
    m.register index ≠ .error (.address cause) := by
  unfold register
  cases m.registers.read index <;> nofun

theorem destination_ne_address (index : Word) (cause : AddressError) :
    destination index ≠ .error (.address cause) := by
  unfold destination
  cases Register.ofIndex index <;> nofun

theorem locate_eq_address_iff (h : m.Holds base start) {cause : AddressError} :
    m.locate base displacement = .error (.address cause) ↔
      m.memory.read (start + displacement.signExtendLow) = .error cause := by
  simp only [locate, except_bind_error, register_ne_address, register_eq_ok_iff, false_or,
    mapError_eq_error_iff, Trap.address.injEq, Memory.read_eq_error_iff]
  constructor
  · rintro ⟨start', hs, e, hl, rfl⟩
    obtain rfl := h.unique hs
    exact hl
  · intro hl
    exact ⟨start, h, cause, hl, rfl⟩

theorem load_eq_address_iff {f : Word → Word} {target : Word} {cause : AddressError} :
    (Action.load f).effect m [target, base, displacement] = .error (.address cause) ↔
      m.locate base displacement = .error (.address cause) := by
  rw [Action.effect, except_bind_error]
  constructor
  · rintro (hl | ⟨offset, -, hd⟩)
    · exact hl
    · rcases except_bind_error.mp hd with hd | ⟨_, -, hr⟩
      · exact absurd hd (destination_ne_address target cause)
      · cases hr
  · exact .inl

theorem store_eq_address_iff {source : Word} {cause : AddressError} :
    Action.store.effect m [source, base, displacement] = .error (.address cause) ↔
      m.locate base displacement = .error (.address cause) ∧ ∃ value, m.Holds source value := by
  rw [Action.effect, except_bind_error]
  constructor
  · rintro (hv | ⟨value, hv, hs⟩)
    · exact absurd hv (m.register_ne_address source cause)
    · rcases except_bind_error.mp hs with hl | ⟨_, -, hr⟩
      · exact ⟨hl, value, register_eq_ok_iff.mp hv⟩
      · cases hr
  · rintro ⟨hl, value, hv⟩
    exact .inr ⟨value, register_eq_ok_iff.mpr hv, except_bind_error.mpr (.inl hl)⟩

theorem effect_eq_address_iff {i : Instruction} (h : m.Holds base start) {target : Word}
    {cause : AddressError} (access : i.operation.AccessesMemory) :
    i.effect [target, base, displacement] m = .error (.address cause) ↔
      m.memory.read (start + displacement.signExtendLow) = .error cause ∧
        (i.operation = .st → ∃ value, m.Holds target value) := by
  rw [Instruction.effect, ← locate_eq_address_iff h]
  rcases access with ho | ho | ho
  · rw [ho, Operation.action, load_eq_address_iff]
    simp
  · rw [ho, Operation.action, load_eq_address_iff]
    simp
  · rw [ho, Operation.action, store_eq_address_iff]
    simp

theorem reports_iff {i : Instruction} (h : m.Holds base start) {target : Word} {mnemonic : String}
    {listed : List Word} {cause : AddressError} (access : i.operation.AccessesMemory) :
    (i.execute [target, base, displacement] m).result = .error (.address mnemonic listed cause) ↔
      mnemonic = i.mnemonic ∧ listed = [target, base, displacement] ∧
        m.memory.read (start + displacement.signExtendLow) = .error cause ∧
        (i.operation = .st → ∃ value, m.Holds target value) := by
  rw [Instruction.execute_eq_error_iff, mapError_eq_error_iff, ← effect_eq_address_iff h access]
  constructor
  · rintro ⟨t, ht, he⟩
    cases t with
    | operandCount => cases he
    | register => cases he
    | address =>
      cases he
      exact ⟨rfl, rfl, ht⟩
  · rintro ⟨rfl, rfl, ht⟩
    exact ⟨_, ht, rfl⟩

theorem reaches_sum (h : m.Holds base start) (displacement : Word) :
    m.Reaches base displacement (start + displacement.signExtendLow) where
  succeeds memory _ _ _ access :=
    have hm : { m with memory }.Holds base start := h
    succeeds_iff hm access
  reports memory _ _ _ _ access :=
    have hm : { m with memory }.Holds base start := h
    reports_iff hm access

/-- On a machine without memory each access reports its address, so there is no other one. -/
theorem Reaches.unique {a b : Word} (ha : m.Reaches base displacement a)
    (hb : m.Reaches base displacement b) : a = b := by
  obtain ⟨cause, hcause⟩ := Memory.locate_empty a
  have hld : Instruction.ld.operation = .ld := rfl
  have hreport := (ha.reports (i := .ld) _ 0 _ _ cause (.inl hld)).mpr
    ⟨rfl, rfl, Memory.read_eq_error_iff.mpr hcause, by simp [hld]⟩
  obtain ⟨-, -, hread, -⟩ := (hb.reports _ 0 _ _ cause (.inl hld)).mp hreport
  exact Memory.locate_error_inj hcause (Memory.read_eq_error_iff.mp hread)

theorem reaches_iff (h : m.Holds base start) {address : Word} :
    m.Reaches base displacement address ↔
      (address.toNat : Int) % 0x100000000 =
        (start.toInt + displacement.signExtendLow.toInt) % 0x100000000 := by
  rw [← Word.eq_ofInt_iff, ← Word.add_eq_ofInt]
  constructor
  · intro ha
    exact ha.unique (reaches_sum h displacement)
  · rintro rfl
    exact reaches_sum h displacement

end Machine

/-- The low half of a word, sign extended, is the one number of 16 bits that is congruent to the
word. A load or a store reaches the one address that is congruent to the contents of its base
register plus the displacement, so two of them reach one word exactly if these sums are congruent.
-/
theorem addresses_exact :
    (∀ (v : Word) (n : Int), v.signExtendLow.toInt = n ↔
      -0x8000 ≤ n ∧ n ≤ 0x7fff ∧ n % 0x10000 = v.toInt % 0x10000) ∧
    (∀ v : Word, v.signExtendLow.signExtendLow = v.signExtendLow) ∧
    (∀ v w : Word, v.signExtendLow = w.signExtendLow ↔ v.setWidth 16 = w.setWidth 16) ∧
    ∀ (m : Machine) (base displacement start : Word), m.Holds base start →
      (∃! address, m.Reaches base displacement address) ∧
      (∀ address : Word, m.Reaches base displacement address ↔
        (address.toNat : Int) % 0x100000000 =
          (start.toInt + displacement.signExtendLow.toInt) % 0x100000000) ∧
      ∀ base' displacement' start' : Word, m.Holds base' start' →
        ((∃ address, m.Reaches base displacement address ∧
            m.Reaches base' displacement' address) ↔
          (start.toInt + displacement.signExtendLow.toInt) % 0x100000000 =
            (start'.toInt + displacement'.signExtendLow.toInt) % 0x100000000) := by
  refine ⟨fun v n => Word.toInt_signExtendLow_eq_iff, Word.signExtendLow_idem,
    fun v w => Word.signExtendLow_eq_iff, fun m base displacement start h => ?_⟩
  have hsum := Machine.reaches_sum h displacement
  refine ⟨⟨_, hsum, fun address ha => ha.unique hsum⟩, fun address => Machine.reaches_iff h,
    fun base' displacement' start' h' => ⟨?_, fun hsame => ?_⟩⟩
  · rintro ⟨address, ha, ha'⟩
    rw [← (Machine.reaches_iff h).mp ha, ← (Machine.reaches_iff h').mp ha']
  · refine ⟨_, hsum, (Machine.reaches_iff h').mpr ?_⟩
    rw [← hsame, ← (Machine.reaches_iff h).mp hsum]

/-- Two words on from the last word of the address space, with a displacement whose high half does
not count. -/
theorem addresses_exact_wrapped :
    ∃ m : Machine, m.Holds 1 (-4) ∧ m.Reaches 1 0x50008 4 ∧
      ∀ address, m.Reaches 1 0x50008 address → address = 4 := by
  let m : Machine :=
    ⟨(Registers.init .hardwired).set 1 (-4), ⟨0, .little, #[0, 0, 0, 0, 7, 0, 0, 0]⟩⟩
  have h : m.Holds 1 (-4) := ⟨1, rfl, by rfl⟩
  obtain ⟨-, -, -, hreach⟩ := addresses_exact
  obtain ⟨hunique, hiff, -⟩ := hreach m 1 0x50008 (-4) h
  have hfour : m.Reaches 1 0x50008 4 := (hiff 4).mpr (by decide)
  exact ⟨m, h, hfour, fun address ha => hunique.unique ha hfour⟩

end WordMachine

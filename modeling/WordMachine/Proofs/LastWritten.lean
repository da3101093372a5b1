import Mathlib.Data.List.Induction
import WordMachine.Proofs.Contents
import WordMachine.Proofs.Invariants

namespace WordMachine

/-- A call that asks memory to change: to hold a word, or to be all zeros. The first may fail. -/
inductive Change
  | write (address value : Word)
  | clear
  deriving DecidableEq

def Change.call : Change → Call
  | .write address value => .setWord address value
  | .clear => .clear

/-- The change says what the word at this address is from then on. -/
def Change.decides (address : Word) : Change → Bool
  | .write target _ => target == address
  | .clear => true

/-- The word that the last change to decide on an address put there. Memory starts out clear. -/
def lastWritten (changes : List Change) (address : Word) : Word :=
  match changes.reverse.find? (·.decides address) with
  | some (.write _ value) => value
  | some .clear | none => 0

theorem lastWritten_write (changes : List Change) (target value address : Word) :
    lastWritten (changes ++ [.write target value]) address =
      if target = address then value else lastWritten changes address := by
  by_cases h : target = address <;> simp [lastWritten, Change.decides, h]

theorem lastWritten_clear (changes : List Change) (address : Word) :
    lastWritten (changes ++ [.clear]) address = 0 := by
  simp [lastWritten, Change.decides]

/-- The aligned word at this address lies wholly inside memory. -/
structure Config.Covers (c : Config) (address : Word) : Prop where
  aligned : address.toNat % 4 = 0
  above : c.base.toNat ≤ address.toNat
  within : address.toNat - c.base.toNat + 4 ≤ c.size

/-- The byte at this offset is part of no word that can be read or written. -/
def Config.Spare (c : Config) (offset : Nat) : Prop :=
  offset < c.size ∧ ∀ address, c.Covers address →
    offset < address.toNat - c.base.toNat ∨ address.toNat - c.base.toNat + 4 ≤ offset

/-- What is wrong with an address that is not covered. Alignment is looked at first. -/
def AddressError.ofAddress (address : Word) : AddressError :=
  if address.toNat % 4 ≠ 0 then .misaligned address else .outOfRange address

namespace Machine

namespace BuiltAs

variable {c : Config} {m : Machine} (h : m.BuiltAs c)
include h

theorem locate_covered {address : Word} (hc : c.Covers address) :
    m.memory.locate address = .ok (address.toNat - c.base.toNat) := by
  obtain ⟨haligned, habove, hwithin⟩ := hc
  rw [Memory.locate_eq_ok_iff, h.base, h.size]
  exact ⟨haligned, by omega, hwithin⟩

theorem locate_uncovered {address : Word} (hc : ¬ c.Covers address) :
    m.memory.locate address = .error (.ofAddress address) := by
  rw [Memory.locate_eq_error_iff, h.base, h.size, AddressError.ofAddress]
  by_cases haligned : address.toNat % 4 = 0
  · refine .inr ⟨haligned, ?_, if_neg (not_not_intro haligned)⟩
    by_contra hinside
    exact hc ⟨haligned, by omega, by omega⟩
  · exact .inl ⟨haligned, if_pos haligned⟩

theorem setWord_covered {address : Word} (hc : c.Covers address) (value : Word) :
    (Call.setWord address value).perform m =
      { result := .ok .done
        state := { m with
          memory := m.memory.setWordAt (address.toNat - c.base.toNat) value } } := by
  rw [Call.perform, Work.setWord_ok (h.locate_covered hc)]
  rfl

theorem setWord_uncovered {address : Word} (hc : ¬ c.Covers address) (value : Word) :
    (Call.setWord address value).perform m =
      { result := .error (.access (.address (.ofAddress address))), state := m } := by
  rw [Call.perform, Work.setWord_error (h.locate_uncovered hc)]
  rfl

end BuiltAs

/-- After these changes every word in reach is the last one written, and no other byte was set. -/
structure Remembers (c : Config) (changes : List Change) (m : Machine) : Prop
    extends BuiltAs c m where
  read : ∀ address, c.Covers address → m.memory.read address = .ok (lastWritten changes address)
  spare : ∀ offset, c.Spare offset → m.memory.byteAt offset = 0

theorem remembers_ofConfig (c : Config) : (ofConfig c).Remembers c [] where
  toBuiltAs := builtAs_ofConfig c
  read := by
    intro address hc
    rw [Memory.read_ok ((builtAs_ofConfig c).locate_covered hc), ofConfig, Memory.wordAt_init]
    rfl
  spare := by
    intro offset _
    exact Memory.byteAt_init _ _ _ _

namespace Remembers

variable {c : Config} {changes : List Change} {m : Machine} (h : m.Remembers c changes)
include h

/-- The bytes of the written word are none of another word's, and none of the spare ones. -/
theorem write_covered {target : Word} (hc : c.Covers target) (value : Word) :
    ((Call.setWord target value).perform m).state.Remembers c
      (changes ++ [.write target value]) where
  toBuiltAs := (invariant_builtAs c).perform h.toBuiltAs _
  read := by
    intro address ha
    rw [h.setWord_covered hc, Memory.read_setWordAt (h.locate_covered hc), lastWritten_write,
      h.read address ha]
    by_cases heq : target = address
    · rw [if_pos heq.symm, if_pos heq]
    · rw [if_neg (Ne.symm heq), if_neg heq]
  spare := by
    intro offset hs
    have hfits := (Memory.locate_eq_ok_iff.mp (h.locate_covered hc)).2.2
    have hapart := hs.2 target hc
    rw [h.setWord_covered hc, Memory.byteAt_setWordAt _ _ _ _ hfits, if_neg (by omega)]
    exact h.spare offset hs

theorem write_uncovered {target : Word} (hc : ¬ c.Covers target) (value : Word) :
    ((Call.setWord target value).perform m).state.Remembers c
      (changes ++ [.write target value]) := by
  rw [h.setWord_uncovered hc]
  refine ⟨h.toBuiltAs, ?_, h.spare⟩
  intro address ha
  have hne : target ≠ address := by
    rintro rfl
    exact hc ha
  rw [lastWritten_write, if_neg hne]
  exact h.read address ha

theorem clear : (Call.clear.perform m).state.Remembers c (changes ++ [.clear]) where
  toBuiltAs := (invariant_builtAs c).perform h.toBuiltAs _
  read := by
    intro address ha
    have hbuilt := (invariant_builtAs c).perform h.toBuiltAs .clear
    rw [Memory.read_ok (hbuilt.locate_covered ha), lastWritten_clear]
    exact congrArg Except.ok (Memory.wordAt_init _ _ _ _)
  spare := by
    intro offset _
    exact Memory.byteAt_init _ _ _ _

theorem perform (change : Change) :
    (change.call.perform m).state.Remembers c (changes ++ [change]) := by
  cases change with
  | write target value =>
    by_cases hc : c.Covers target
    · exact h.write_covered hc value
    · exact h.write_uncovered hc value
  | clear => exact h.clear

end Remembers

theorem after_changes (m : Machine) (changes : List Change) (change : Change) :
    m.after ((changes ++ [change]).map Change.call) =
      (change.call.perform (m.after (changes.map Change.call))).state := by
  rw [List.map_append, after_append]
  rfl

theorem remembers_after (c : Config) (changes : List Change) :
    ((ofConfig c).after (changes.map Change.call)).Remembers c changes := by
  -- From the end of the list, where the change made last stands.
  induction changes using List.reverseRecOn with
  | nil => exact remembers_ofConfig c
  | append_singleton changes change ih =>
    rw [after_changes]
    exact ih.perform change

/-- Whatever is written and cleared, with errors or without: an address in reach can be written and
reads as last written, any other address has its error and a write there changes nothing, spare
bytes stay 0, and memory stays where it is. -/
theorem memory_remembers_changes (c : Config) (changes : List Change) :
    let m := (ofConfig c).after (changes.map Change.call)
    (∀ address, c.Covers address →
      m.memory.read address = .ok (lastWritten changes address) ∧
        ∀ value, ((Call.setWord address value).perform m).result = .ok .done) ∧
    (∀ address, ¬ c.Covers address →
      m.memory.read address = .error (.ofAddress address) ∧
        ∀ value, (Call.setWord address value).perform m =
          { result := .error (.access (.address (.ofAddress address))), state := m }) ∧
    (∀ offset, c.Spare offset → m.memory.bytes[offset]? = some 0) ∧
    m.memory.base = c.base ∧ m.memory.size = c.size ∧ m.memory.order = c.order := by
  intro m
  have h : m.Remembers c changes := remembers_after c changes
  refine ⟨fun address hc => ⟨h.read address hc, fun value => ?_⟩,
    fun address hc => ⟨?_, h.setWord_uncovered hc⟩, fun offset hs => ?_, h.base, h.size, h.order⟩
  · rw [h.setWord_covered hc]
  · exact Memory.read_error (h.locate_uncovered hc)
  · rw [Memory.getElem?_bytes (by rw [h.size]; exact hs.1), h.spare offset hs]

/-- Neither end of this memory is aligned: two words are in reach, two bytes below them and one
above are spare. -/
theorem memory_remembers_changes_unaligned :
    let c : Config := { base := 2, size := 11, order := .big }
    let changes : List Change := [.write 4 7, .clear, .write 8 5, .write 12 9, .write 6 3]
    let m := (ofConfig c).after (changes.map Change.call)
    (c.Covers 4 ∧ m.memory.read 4 = .ok 0) ∧ (c.Covers 8 ∧ m.memory.read 8 = .ok 5) ∧
      (¬ c.Covers 12 ∧ m.memory.read 12 = .error (.outOfRange 12)) ∧
      c.Spare 10 ∧ m.memory.bytes[10]? = some 0 := by
  intro c changes m
  have h4 : c.Covers 4 := ⟨by decide, by decide, by decide⟩
  have h8 : c.Covers 8 := ⟨by decide, by decide, by decide⟩
  have h12 : ¬ c.Covers 12 := fun h => absurd h.within (by decide)
  have h10 : c.Spare 10 := by
    refine ⟨by decide, fun address h => .inr ?_⟩
    have haligned := h.aligned
    have habove : 2 ≤ address.toNat := h.above
    have hwithin : address.toNat - 2 + 4 ≤ 11 := h.within
    change address.toNat - 2 + 4 ≤ 10
    omega
  have hlast4 : lastWritten changes 4 = 0 := by decide
  have hlast8 : lastWritten changes 8 = 5 := by decide
  have herror : AddressError.ofAddress 12 = .outOfRange 12 := by decide
  obtain ⟨hcovered, huncovered, hspare, -⟩ := memory_remembers_changes c changes
  refine ⟨⟨h4, ?_⟩, ⟨h8, ?_⟩, ⟨h12, ?_⟩, h10, ?_⟩
  · rw [(hcovered 4 h4).1, hlast4]
  · rw [(hcovered 8 h8).1, hlast8]
  · rw [(huncovered 12 h12).1, herror]
  · rw [hspare 10 h10]

end Machine

end WordMachine

import Mathlib.Data.List.Basic
import WordMachine.Proofs.UniqueReading

namespace WordMachine

namespace Catalog

/-- Registers instructions one after the other, up to the first one that is refused. -/
def registerAll (c : Catalog) : List Instruction → Outcome Catalog CatalogError Unit
  | [] => { result := .ok (), state := c }
  | i :: is =>
    let registered := c.register i
    match registered.result with
    | .error _ => registered
    | .ok () => registered.state.registerAll is

def ApartFrom (c : Catalog) (is : List Instruction) : Prop :=
  ∀ e ∈ c.instructions, ∀ i ∈ is, e.template.overlaps i.template = false

/-- No word is accepted at two different positions. -/
def NoSharedWord (is : List Instruction) : Prop :=
  ∀ (word : Word) (j k : Nat) (a b : Instruction), is[j]? = some a → is[k]? = some b →
    a.template.accepts word = true → b.template.accepts word = true → j = k

variable {c : Catalog} {is is' : List Instruction}

theorem registerAll_append (apart : c.ApartFrom is)
    (distinct : is.Pairwise fun a b => a.template.overlaps b.template = false)
    (later : List Instruction) :
    c.registerAll (is ++ later) =
      registerAll { c with instructions := c.instructions ++ is } later := by
  induction is generalizing c with
  | nil => rw [List.nil_append, List.append_nil]
  | cons i is ih =>
    obtain ⟨hi, hdistinct⟩ := List.pairwise_cons.mp distinct
    have hfirst := register_of_apart fun e he => apart e he i List.mem_cons_self
    have hrest : ApartFrom { c with instructions := c.instructions ++ [i] } is := by
      intro e he j hj
      rcases List.mem_append.mp he with he | he
      · exact apart e he j (List.mem_cons_of_mem i hj)
      · rw [List.mem_singleton.mp he]
        exact hi j hj
    rw [List.cons_append, registerAll, hfirst]
    simpa using ih hrest hdistinct

theorem registerAll_of_apart (apart : c.ApartFrom is)
    (distinct : is.Pairwise fun a b => a.template.overlaps b.template = false) :
    c.registerAll is =
      { result := .ok (), state := { c with instructions := c.instructions ++ is } } := by
  have h := registerAll_append apart distinct []
  rwa [List.append_nil] at h

theorem registerAll_ok_iff :
    (c.registerAll is).result = .ok () ↔
      c.ApartFrom is ∧ is.Pairwise fun a b => a.template.overlaps b.template = false := by
  constructor
  · intro h
    induction is generalizing c with
    | nil => exact ⟨fun _ _ _ hi => absurd hi List.not_mem_nil, .nil⟩
    | cons i is ih =>
      cases hr : (c.register i).result with
      | error e => simp [registerAll, hr] at h
      | ok _ =>
        have hfirst := register_ok_iff.mp hr
        rw [registerAll, register_of_apart hfirst] at h
        obtain ⟨hrest, hdistinct⟩ := ih h
        refine ⟨fun e he j hj => ?_, .cons (fun j hj => hrest i (by simp) j hj) hdistinct⟩
        rcases List.mem_cons.mp hj with rfl | hj
        · exact hfirst e he
        · exact hrest e (by simp [he]) j hj
  · rintro ⟨apart, distinct⟩
    rw [registerAll_of_apart apart distinct]

theorem registerAll_empty_ok_iff {name description : String} :
    (registerAll { name, description } is).result = .ok () ↔
      is.Pairwise fun a b => a.template.overlaps b.template = false := by
  rw [registerAll_ok_iff]
  exact ⟨fun h => h.2, fun h => ⟨nofun, h⟩⟩

theorem registerAll_empty {name description : String}
    (distinct : is.Pairwise fun a b => a.template.overlaps b.template = false) :
    registerAll { name, description } is =
      { result := .ok (), state := { name, description, instructions := is } } :=
  registerAll_of_apart nofun distinct

theorem Separated.registerAll (hc : c.Separated) :
    registerAll { name := c.name, description := c.description } c.instructions =
      { result := .ok (), state := c } :=
  registerAll_empty hc.apart

theorem pairwise_apart_iff (hi : ∀ i ∈ is, i.Compiled) :
    (is.Pairwise fun a b => a.template.overlaps b.template = false) ↔ NoSharedWord is := by
  constructor
  · intro hapart word j k a b ha hb hwa hwb
    have hs : Separated { name := "", description := "", instructions := is } := ⟨hi, hapart⟩
    exact hs.position_unique ha hb hwa hwb
  · intro hshared
    refine List.pairwise_iff_getElem.mpr fun j k hj hk hlt => ?_
    by_contra ho
    have hwords := (hi _ (List.getElem_mem hj)).overlaps_iff (hi _ (List.getElem_mem hk))
    obtain ⟨word, hwa, hwb⟩ := hwords.mp (by simpa using ho)
    have hsame := hshared word j k _ _ (List.getElem?_eq_getElem hj) (List.getElem?_eq_getElem hk)
      hwa hwb
    omega

/-- Compiled instructions, put into an empty catalog one after the other, are all accepted if and
only if no word is accepted at two different positions. The same then holds in any other order, and
every word reads the same in the catalogs of both. -/
theorem registration_order_irrelevant (compiled : ∀ i ∈ is, i.Compiled) (perm : is.Perm is')
    (name description name' description' : String) :
    ((registerAll { name, description } is).result = .ok () ↔
      (registerAll { name := name', description := description' } is').result = .ok ()) ∧
    ((registerAll { name, description } is).result = .ok () ↔ NoSharedWord is) ∧
    ((registerAll { name, description } is).result = .ok () →
      (registerAll { name := name', description := description' } is').result = .ok () →
      ∀ word, (registerAll { name, description } is).state.lookup word =
        (registerAll { name := name', description := description' } is').state.lookup word) := by
  have hperm : (is.Pairwise fun a b => a.template.overlaps b.template = false) ↔
      is'.Pairwise fun a b => a.template.overlaps b.template = false :=
    perm.pairwise_iff fun {a b} h => (b.template.overlaps_comm a.template).trans h
  simp only [registerAll_empty_ok_iff]
  refine ⟨hperm, pairwise_apart_iff compiled, fun hapart hapart' word => ?_⟩
  rw [registerAll_empty hapart, registerAll_empty hapart']
  have hs : Separated { name, description, instructions := is } := ⟨compiled, hapart⟩
  have hs' : Separated { name := name', description := description', instructions := is' } :=
    ⟨fun i hi => compiled i (perm.mem_iff.mpr hi), hapart'⟩
  refine Option.ext fun i => ?_
  rw [hs.lookup_eq_some_iff, hs'.lookup_eq_some_iff, perm.mem_iff]

/-- The standard instructions may be registered from the last one to the first. -/
theorem registration_order_irrelevant_standard :
    standard.instructions.length = 14 ∧ (∀ i ∈ standard.instructions, i.Compiled) ∧
      standard.instructions.Perm standard.instructions.reverse ∧
      (registerAll { name := "Reversed", description := "" }
        standard.instructions.reverse).result = .ok () ∧
      ∀ word, standard.lookup word = (registerAll { name := "Reversed", description := "" }
        standard.instructions.reverse).state.lookup word := by
  have hs := Reachable.standard.separated
  have hlength : standard.instructions.length = 14 := by
    have hl := congrArg List.length standard_complete
    rw [List.length_map] at hl
    exact hl
  have hperm := (List.reverse_perm standard.instructions).symm
  obtain ⟨hboth, -, hlookup⟩ := registration_order_irrelevant hs.compiled hperm standard.name
    standard.description "Reversed" ""
  rw [hs.registerAll] at hboth hlookup
  have hreversed := hboth.mp rfl
  exact ⟨hlength, hs.compiled, hperm, hreversed, hlookup rfl hreversed⟩

end Catalog

end WordMachine

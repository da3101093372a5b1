import Mathlib.Data.List.Forall2
import WordMachine.Proofs.RegistrationOrder

namespace WordMachine

namespace Catalog

def Compiles (ds : List Definition) (rows : List Instruction) : Prop :=
  List.Forall₂ (fun d row => d.compile = .ok row) ds rows

/-- The first row that overlaps an entry, after rows that do not, and the first entry that it
overlaps. -/
structure Clash (c : Catalog) (rows added : List Instruction) (row existing : Instruction) :
    Prop where
  table : ∃ left, rows = added ++ row :: left
  apart : c.ApartFrom added
  existing : ∃ before after, c.instructions = before ++ existing :: after ∧
    existing.template.overlaps row.template = true ∧
    ∀ e ∈ before, e.template.overlaps row.template = false

variable {c full : Catalog} {ds : List Definition} {rows added : List Instruction}
  {row existing : Instruction}

theorem apartFrom_or_clash (c : Catalog) (rows : List Instruction) :
    c.ApartFrom rows ∨ ∃ added row existing, c.Clash rows added row existing := by
  cases hfind : rows.find? fun row => (c.collision? row).isSome with
  | none =>
    refine .inl fun e he row hrow => collision?_eq_none_iff.mp ?_ e he
    simpa using List.find?_eq_none.mp hfind row hrow
  | some row =>
    obtain ⟨hsome, added, left, hrows, hadded⟩ := List.find?_eq_some_iff_append.mp hfind
    obtain ⟨existing, hexisting⟩ := Option.isSome_iff_exists.mp hsome
    obtain ⟨ho, before, after, hl, hbefore⟩ := collision?_eq_some_iff.mp hexisting
    refine .inr ⟨added, row, existing, ⟨left, hrows⟩, fun e he r hr => ?_, before, after, hl, ho,
      hbefore⟩
    exact collision?_eq_none_iff.mp (by simpa using hadded r hr) e he

theorem defineAll_eq_registerAll (compiled : Compiles ds rows) :
    c.defineAll ds = c.registerAll rows := by
  induction compiled generalizing c with
  | nil => rfl
  | @cons d row ds rows hd _ ih =>
    have hdefine : c.define d = c.register row := by rw [define, hd]
    cases hr : (c.register row).result with
    | error e => simp only [defineAll, registerAll, hdefine, hr]
    | ok _ => simp only [defineAll, registerAll, hdefine, hr, ih]

/-- The rows before the one that clashes come after the entries of the catalog, so they are not the
first to collide with it. -/
theorem Clash.registerAll (h : c.Clash rows added row existing)
    (distinct : rows.Pairwise fun a b => a.template.overlaps b.template = false) :
    c.registerAll rows =
      { result := .error (.duplicateEncoding row.mnemonic existing.mnemonic)
        state := { c with instructions := c.instructions ++ added } } := by
  obtain ⟨⟨left, rfl⟩, apart, before, after, hl, ho, hbefore⟩ := h
  obtain ⟨hadded, -, -⟩ := List.pairwise_append.mp distinct
  have hcollision : collision? { c with instructions := c.instructions ++ added } row =
      some existing :=
    collision?_eq_some_iff.mpr ⟨ho, before, after ++ added, by simp [hl], hbefore⟩
  rw [registerAll_append apart hadded, Catalog.registerAll, register_of_collision hcollision]

theorem registerAll_stopped {e : Instruction} (he : e ∈ c.instructions)
    (ho : e.template.overlaps row.template = true) (later : List Instruction) :
    ∃ error, c.registerAll (row :: later) = { result := .error error, state := c } := by
  cases hc : c.collision? row with
  | none =>
    rw [collision?_eq_none_iff.mp hc e he] at ho
    cases ho
  | some existing => exact ⟨_, by rw [registerAll, register_of_collision hc]⟩

/-- However far the first attempt got, its first row then overlaps an entry. -/
theorem registerAll_again (c : Catalog)
    (distinct : rows.Pairwise fun a b => a.template.overlaps b.template = false) (h : rows ≠ []) :
    ∃ error, (c.registerAll rows).state.registerAll rows =
      { result := .error error, state := (c.registerAll rows).state } := by
  obtain ⟨first, rest, rfl⟩ := List.exists_cons_of_ne_nil h
  rcases apartFrom_or_clash c (first :: rest) with apart | ⟨added, row, existing, h⟩
  · refine registerAll_stopped (e := first) ?_ (Template.overlaps_self _) rest
    simp [registerAll_of_apart apart distinct]
  · have hstate := congrArg Outcome.state (h.registerAll distinct)
    obtain ⟨⟨left, hrows⟩, -, before, after, hl, ho, -⟩ := h
    cases added with
    | nil =>
      obtain ⟨rfl, -⟩ := List.cons.inj hrows
      exact registerAll_stopped (e := existing) (by simp [hstate, hl]) ho rest
    | cons a added =>
      obtain ⟨rfl, -⟩ := List.cons.inj hrows
      exact registerAll_stopped (e := first) (by simp [hstate]) (Template.overlaps_self _) rest

theorem standard_compiles : Compiles standardDefinitions standard.instructions := by
  rw [Compiles, ← standard_complete, List.forall₂_map_left_iff, List.forall₂_same]
  intro i hi
  obtain ⟨d, hd⟩ := Reachable.standard.separated.compiled i hi
  rwa [(Definition.template_of_compile hd).2.2]

theorem addStandard_of_ok
    (h : c.registerAll standard.instructions = { result := .ok (), state := full }) :
    c.addStandard =
      { result := .ok (), state := full, log := [.catalogFilled full.name full.size] } := by
  simp only [addStandard, defineAll_eq_registerAll standard_compiles, h]

theorem addStandard_of_error {e : CatalogError}
    (h : c.registerAll standard.instructions = { result := .error e, state := full }) :
    c.addStandard = { result := .error e, state := full } := by
  simp only [addStandard, defineAll_eq_registerAll standard_compiles, h]

/-- Adding the standard instructions puts in all rows of the table if none of them overlaps an
entry. Otherwise the rows before the first that does go in, and the error names that row and the
first entry that it overlaps. Doing it again is refused and changes nothing. -/
theorem addStandard_adds_prefix (c : Catalog) :
    ∃ rows, Compiles standardDefinitions rows ∧ rows.length = 14 ∧
      (c.ApartFrom rows ∧
          c.addStandard =
            { result := .ok ()
              state := { c with instructions := c.instructions ++ rows }
              log := [.catalogFilled c.name (c.size + 14)] } ∨
        ∃ added row existing, c.Clash rows added row existing ∧
          c.addStandard =
            { result := .error (.duplicateEncoding row.mnemonic existing.mnemonic)
              state := { c with instructions := c.instructions ++ added } }) ∧
      ∃ error, c.addStandard.state.addStandard =
        { result := .error error, state := c.addStandard.state } := by
  have compiled := standard_compiles
  have distinct := Reachable.standard.separated.apart
  have hlength : standard.instructions.length = 14 := compiled.length_eq.symm
  refine ⟨standard.instructions, compiled, hlength, ?_, ?_⟩
  · rcases apartFrom_or_clash c standard.instructions with apart | ⟨added, row, existing, h⟩
    · refine .inl ⟨apart, ?_⟩
      rw [addStandard_of_ok (registerAll_of_apart apart distinct)]
      simp [size, hlength]
    · exact .inr ⟨added, row, existing, h, addStandard_of_error (h.registerAll distinct)⟩
  · have hrows : standard.instructions ≠ [] := List.ne_nil_of_length_pos (by omega)
    obtain ⟨error, h⟩ := registerAll_again c distinct hrows
    refine ⟨error, ?_⟩
    rw [addStandard_state, defineAll_eq_registerAll compiled]
    exact addStandard_of_error h

end Catalog

end WordMachine

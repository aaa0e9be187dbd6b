import ContentSchema.Proofs.Source.Identifiers

/-! # Scopes of a module

Each name that occurs in a module is found: a value that is needed at once is bound further up, and a
value that is put off, or a type, is bound somewhere in the module.
-/

namespace ContentSchema

open Source

namespace Source

namespace Module

variable {m : Module} {earlier later : List String}

/-- The name is found, the values in `earlier` being those that are bound so far. -/
def Finds (m : Module) (earlier : List String) : Use → Prop
  | .value name => name ∈ earlier
  | .deferred name => name ∈ m.values
  | .type name => name ∈ m.types
  | .typeOf name => name ∈ m.values

/-- The statements find their names as they run one after the other. -/
def ScopedFrom (m : Module) : List String → List Statement → Prop
  | _, [] => True
  | earlier, s :: rest => (∀ u ∈ s.uses, m.Finds earlier u) ∧ m.ScopedFrom (earlier ++ s.values) rest

def Scoped (m : Module) : Prop := m.ScopedFrom m.importedValues m.statements

theorem Finds.mono {u : Use} (h : m.Finds earlier u) (hs : earlier ⊆ later) : m.Finds later u := by
  cases u with
  | value name => exact hs h
  | _ => exact h

theorem scopedFrom_append {statements rest : List Statement} :
    m.ScopedFrom earlier (statements ++ rest) ↔
      m.ScopedFrom earlier statements ∧
        m.ScopedFrom (earlier ++ statements.flatMap (·.values)) rest := by
  induction statements generalizing earlier with
  | nil => simp [ScopedFrom]
  | cons s later ih =>
    rw [List.cons_append, ScopedFrom, ScopedFrom, ih, List.flatMap_cons, List.append_assoc,
      and_assoc]

theorem ScopedFrom.finds {statements : List Statement} (h : m.ScopedFrom earlier statements)
    (hs : earlier ++ statements.flatMap (·.values) ⊆ later) {s : Statement} (hm : s ∈ statements)
    {u : Use} (hu : u ∈ s.uses) : m.Finds later u := by
  induction statements generalizing earlier with
  | nil => cases hm
  | cons first rest ih =>
    rw [List.flatMap_cons, ← List.append_assoc] at hs
    rcases List.mem_cons.1 hm with rfl | hm
    · exact (h.1 u hu).mono fun name hn => hs (by simp [hn])
    · exact ih h.2 hs hm

theorem Scoped.finds (h : m.Scoped) {s : Statement} (hm : s ∈ m.statements) {u : Use}
    (hu : u ∈ s.uses) : m.Finds m.values u :=
  ScopedFrom.finds h (List.Subset.refl _) hm hu

def Once (m : Module) : Use → Prop
  | .value name => m.values.count name = 1
  | .deferred name => m.values.count name = 1
  | .type name => m.types.count name = 1
  | .typeOf name => m.values.count name = 1

theorem Scoped.once (h : m.Scoped) (hv : m.values.Nodup) (ht : m.types.Nodup) {s : Statement}
    (hm : s ∈ m.statements) {u : Use} (hu : u ∈ s.uses) : m.Once u := by
  have hf := h.finds hm hu
  cases u with
  | type name => exact List.count_eq_one_of_mem ht hf
  | _ => exact List.count_eq_one_of_mem hv hf

theorem constant_mem_values {d : Declaration} (h : d ∈ m.declarations) : d.constant ∈ m.values := by
  refine m.perm_values.mem_iff.2 (List.mem_append_right _ (List.mem_append_right _ ?_))
  exact List.mem_map_of_mem h

theorem base_mem_values {d : Declaration} {base : String} (h : d ∈ m.declarations)
    (hb : d.base? = some base) : base ∈ m.values := by
  refine m.perm_values.mem_iff.2 (List.mem_append_right _ (List.mem_append_left _ ?_))
  exact List.mem_filterMap.2 ⟨d, h, hb⟩

theorem type_mem_types {d : Declaration} (h : d ∈ m.declarations) : d.type ∈ m.types := by
  rw [types_eq]
  exact List.mem_append_right _ (List.mem_map_of_mem h)

end Module

namespace Declaration

def assertion? : Declaration → Option String
  | schema _ _ _ assertion => assertion
  | linked _ _ _ _ _ => none

/-- The names in the body, in the assertion and in the links are found. -/
structure Scoped (d : Declaration) (m : Module) (earlier : List String) : Prop where
  body : ∀ u ∈ d.body.uses, m.Finds earlier u
  assertion : ∀ type ∈ d.assertion?, type ∈ m.types
  constants : ∀ link ∈ d.links, ∀ constant ∈ link.constants, constant ∈ m.values
  types : ∀ link ∈ d.links, ∀ type ∈ link.types, type ∈ m.types

variable {d : Declaration} {m : Module} {earlier later : List String}

theorem Scoped.mono (h : d.Scoped m earlier) (hs : earlier ⊆ later) : d.Scoped m later where
  body u hu := (h.body u hu).mono hs
  assertion := h.assertion
  constants := h.constants
  types := h.types

/-- The statements of a declaration add the names of the declaration to what they find. -/
theorem Scoped.scopedFrom (h : d.Scoped m earlier) (hd : d ∈ m.declarations) :
    m.ScopedFrom earlier d.statements := by
  have hconstant := Module.constant_mem_values hd
  have htype := Module.type_mem_types hd
  cases d with
  | schema constant type body assertion =>
    refine ⟨?_, ?_, trivial⟩
    · intro u hu
      rcases List.mem_append.1 hu with hu | hu
      · exact h.body u hu
      · obtain ⟨t, ht, rfl⟩ := List.mem_map.1 hu
        exact h.assertion t (Option.mem_toList.1 ht)
    · intro u hu
      obtain rfl := List.mem_singleton.1 hu
      exact hconstant
  | linked base constant type body links =>
    have hbase : base ∈ m.values := Module.base_mem_values hd rfl
    refine ⟨h.body, ?_, ?_, trivial⟩
    · intro u hu
      rcases List.mem_cons.1 hu with rfl | hu
      · exact hbase
      · obtain ⟨link, hl, hu⟩ := List.mem_flatMap.1 hu
        obtain ⟨t, ht, rfl⟩ := List.mem_map.1 hu
        exact h.types link hl t ht
    · intro u hu
      rcases List.mem_cons.1 hu with rfl | hu
      · exact htype
      · rcases List.mem_cons.1 hu with rfl | hu
        · -- the base is the value that the first statement has just bound
          simp [Module.Finds, Statement.values]
        · obtain ⟨link, hl, hu⟩ := List.mem_flatMap.1 hu
          rw [LinkField.uses_expr] at hu
          obtain ⟨c, hc, rfl⟩ := List.mem_map.1 hu
          exact h.constants link hl c hc

end Declaration

theorem Declaration.value_of_mem_statements {d : Declaration} {s : Statement} {name : String}
    (hs : s ∈ d.statements) (hu : .value name ∈ s.uses) :
    .value name ∈ d.body.uses ∨ d.base? = some name := by
  cases d with
  | schema constant type body assertion =>
    simp only [statements, List.mem_cons, List.not_mem_nil, or_false] at hs
    rcases hs with rfl | rfl
    · rcases List.mem_append.1 hu with hu | hu
      · exact .inl hu
      · obtain ⟨_, -, ⟨⟩⟩ := List.mem_map.1 hu
    · simp [Statement.uses] at hu
  | linked base constant type body links =>
    simp only [statements, List.mem_cons, List.not_mem_nil, or_false] at hs
    rcases hs with rfl | rfl | rfl
    · exact .inl hu
    · simp [Statement.uses] at hu
    · right
      simp only [Statement.uses, LinkField.uses_expr, List.mem_cons, List.mem_flatMap,
        List.mem_map, reduceCtorEq, and_false, exists_false, or_false, false_or] at hu
      exact congrArg some (Use.value.inj hu).symm

theorem Module.scopedFrom_flatMap {m : Module} {earlier : List String} {ds : List Declaration}
    (hm : ∀ d ∈ ds, d ∈ m.declarations) (h : ∀ d ∈ ds, d.Scoped m earlier) :
    m.ScopedFrom earlier (ds.flatMap (·.statements)) := by
  induction ds generalizing earlier with
  | nil => trivial
  | cons d rest ih =>
    rw [List.forall_mem_cons] at hm h
    rw [List.flatMap_cons, scopedFrom_append]
    refine ⟨h.1.scopedFrom hm.1, ih hm.2 fun d hd => ?_⟩
    exact (h.2 d hd).mono (List.subset_append_left _ _)

end Source

end ContentSchema

import ContentSchema.Report
import Mathlib.Data.List.Forall2

/-! # Reports of many steps

Steps over a list succeed together just where each of them does.
-/

namespace ContentSchema

theorem bind_eq_ok {ε α β : Type} {first : Except ε α} {next : α → Except ε β} {b : β} :
    (first >>= next) = .ok b ↔ ∃ a, first = .ok a ∧ next a = .ok b := by
  rcases first with _ | a <;> simp [bind, Except.bind]

theorem map_eq_ok {ε α β : Type} {first : Except ε α} {f : α → β} {b : β} :
    first.map f = .ok b ↔ ∃ a, first = .ok a ∧ f a = b := by
  rcases first with _ | a <;> simp [Except.map]

theorem ite_error_eq_ok {ε α : Type} {c : Prop} [Decidable c] {e : ε} {next : Except ε α} {a : α} :
    (if c then .error e else next) = .ok a ↔ ¬ c ∧ next = .ok a := by
  split <;> simp [*]

theorem exists_ok_of_mapM {ε α β : Type} {f : α → Except ε β} {as : List α} {bs : List β}
    (h : as.mapM f = .ok bs) : ∀ a ∈ as, ∃ b, f a = .ok b := by
  induction as generalizing bs with
  | nil => simp
  | cons a rest ih =>
    rw [List.mapM_cons] at h
    obtain ⟨b, hb, h⟩ := bind_eq_ok.1 h
    obtain ⟨cs, hc, -⟩ := bind_eq_ok.1 h
    exact List.forall_mem_cons.2 ⟨⟨b, hb⟩, ih hc⟩

namespace Report

variable {α β : Type}

theorem map_eq_self {f : α → α} {report : Report α} (h : ∀ a, report.outcome = .ok a → f a = a) :
    f <$> report = report := by
  rcases report with ⟨warnings, _ | a⟩
  · rfl
  · rw [map_eq, Except.map, h a rfl]

theorem mapM_congr {f g : α → Report β} {as : List α} (h : ∀ a ∈ as, f a = g a) :
    as.mapM f = as.mapM g := by
  induction as with
  | nil => rfl
  | cons a rest ih =>
    rw [List.forall_mem_cons] at h
    rw [List.mapM_cons, List.mapM_cons, h.1, ih h.2]

theorem mapM_map {γ : Type} (g : β → γ) (f : α → Report β) (as : List α) :
    as.mapM (fun a => g <$> f a) = List.map g <$> as.mapM f := by
  induction as with
  | nil => simp
  | cons a rest ih => simp [ih]

theorem foldlM_map {γ : Type} {g : β → γ} {f : β → α → Report β} {f' : γ → α → Report γ}
    (h : ∀ b a, f' (g b) a = g <$> f b a) (as : List α) (start : β) :
    as.foldlM f' (g start) = g <$> as.foldlM f start := by
  induction as generalizing start with
  | nil => simp
  | cons a rest ih => simp only [List.foldlM_cons, h, bind_map_left, map_bind, ih]

theorem outcome_mapM_eq_ok {f : α → Report β} {as : List α} {bs : List β} :
    (as.mapM f).outcome = .ok bs ↔ List.Forall₂ (fun a b => (f a).outcome = .ok b) as bs := by
  induction as generalizing bs with
  | nil =>
    rw [List.mapM_nil, outcome_pure, List.forall₂_nil_left_iff]
    constructor
    · intro h
      exact (Except.ok.inj h).symm
    · intro h
      exact congrArg Except.ok h.symm
  | cons a rest ih =>
    rw [List.mapM_cons, outcome_bind_eq_ok, List.forall₂_cons_left_iff]
    constructor
    · rintro ⟨b, hb, h⟩
      obtain ⟨cs, hc, h⟩ := outcome_bind_eq_ok.1 h
      exact ⟨b, cs, hb, ih.1 hc, (Except.ok.inj h).symm⟩
    · rintro ⟨b, cs, hb, hc, rfl⟩
      exact ⟨b, hb, outcome_bind_eq_ok.2 ⟨cs, ih.2 hc, rfl⟩⟩

theorem exists_of_mem_right {R : α → β → Prop} {as : List α} {bs : List β} {b : β}
    (h : List.Forall₂ R as bs) (hb : b ∈ bs) : ∃ a ∈ as, R a b := by
  induction h with
  | nil => cases hb
  | cons ha _ ih =>
    rcases List.mem_cons.1 hb with rfl | hb
    · exact ⟨_, List.mem_cons_self, ha⟩
    · obtain ⟨a, hm, ha⟩ := ih hb
      exact ⟨a, List.mem_cons_of_mem _ hm, ha⟩

theorem exists_of_mem_mapM {f : α → Report β} {as : List α} {bs : List β} {b : β}
    (h : (as.mapM f).outcome = .ok bs) (hb : b ∈ bs) : ∃ a ∈ as, (f a).outcome = .ok b := by
  obtain ⟨a, ha, he⟩ := exists_of_mem_right (outcome_mapM_eq_ok.1 h) hb
  exact ⟨a, ha, he⟩

theorem exists_outcome_mapM {f : α → Report β} {as : List α}
    (h : ∀ a ∈ as, ∃ b, (f a).outcome = .ok b) : ∃ bs, (as.mapM f).outcome = .ok bs := by
  induction as with
  | nil => exact ⟨[], rfl⟩
  | cons a rest ih =>
    rw [List.forall_mem_cons] at h
    obtain ⟨b, hb⟩ := h.1
    obtain ⟨bs, hbs⟩ := ih h.2
    exact ⟨b :: bs, outcome_mapM_eq_ok.2 (.cons hb (outcome_mapM_eq_ok.1 hbs))⟩

theorem exists_mem_zip_of_mapM {f : α → Report β} {as : List α} {bs : List β} {a : α}
    (h : (as.mapM f).outcome = .ok bs) (ha : a ∈ as) :
    ∃ b, (a, b) ∈ as.zip bs ∧ (f a).outcome = .ok b := by
  have hf := outcome_mapM_eq_ok.1 h
  clear h
  induction hf with
  | nil => cases ha
  | cons hb _ ih =>
    rcases List.mem_cons.1 ha with rfl | ha
    · exact ⟨_, List.mem_cons_self, hb⟩
    · obtain ⟨b, hm, hb⟩ := ih ha
      exact ⟨b, List.mem_cons_of_mem _ hm, hb⟩

theorem exists_mem_of_mapM {f : α → Report β} {as : List α} {bs : List β} {a : α}
    (h : (as.mapM f).outcome = .ok bs) (ha : a ∈ as) : ∃ b ∈ bs, (f a).outcome = .ok b := by
  obtain ⟨b, hm, hb⟩ := exists_mem_zip_of_mapM h ha
  exact ⟨b, (List.of_mem_zip hm).2, hb⟩

theorem outcome_map_eq_error {f : α → β} {report : Report α} {e : Failure} :
    (f <$> report).outcome = .error e ↔ report.outcome = .error e := by
  rcases report with ⟨w, _ | a⟩ <;> simp [map_eq, Except.map]

theorem outcome_bind_eq_error {first : Report α} {next : α → Report β} {e : Failure} :
    (first >>= next).outcome = .error e ↔
      first.outcome = .error e ∨ ∃ a, first.outcome = .ok a ∧ (next a).outcome = .error e := by
  rcases first with ⟨w, _ | a⟩ <;> simp [outcome_bind, Except.bind]

theorem exists_of_mapM_error {f : α → Report β} {as : List α} {e : Failure}
    (h : (as.mapM f).outcome = .error e) : ∃ a ∈ as, (f a).outcome = .error e := by
  induction as with
  | nil => cases h
  | cons a rest ih =>
    rw [List.mapM_cons, outcome_bind_eq_error] at h
    rcases h with h | ⟨b, -, h⟩
    · exact ⟨a, List.mem_cons_self, h⟩
    · rw [bind_pure_comp, outcome_map_eq_error] at h
      obtain ⟨a', ha, he⟩ := ih h
      exact ⟨a', List.mem_cons_of_mem a ha, he⟩

theorem exists_of_foldlM_error {f : β → α → Report β} {as : List α} {start : β} {e : Failure}
    (h : (as.foldlM f start).outcome = .error e) : ∃ a ∈ as, ∃ b, (f b a).outcome = .error e := by
  induction as generalizing start with
  | nil => cases h
  | cons a rest ih =>
    rw [List.foldlM_cons, outcome_bind_eq_error] at h
    rcases h with h | ⟨b, -, h⟩
    · exact ⟨a, List.mem_cons_self, start, h⟩
    · obtain ⟨a', ha, b', hb⟩ := ih h
      exact ⟨a', List.mem_cons_of_mem a ha, b', hb⟩

theorem warnings_mapM {f : α → Report β} {as : List α} {bs : List β}
    (h : (as.mapM f).outcome = .ok bs) :
    (as.mapM f).warnings = as.flatMap fun a => (f a).warnings := by
  induction as generalizing bs with
  | nil => rfl
  | cons a rest ih =>
    rw [List.mapM_cons, outcome_bind_eq_ok] at h
    obtain ⟨b, hb, h⟩ := h
    rw [bind_pure_comp] at h
    obtain ⟨bs', hbs, -⟩ := outcome_map_eq_ok.1 h
    rw [List.mapM_cons, warnings_bind_of_ok hb, bind_pure_comp, warnings_map, ih hbs,
      List.flatMap_cons]

theorem mem_warnings_mapM {f : α → Report β} {as : List α} {bs : List β} {a : α} {w : Warning}
    (h : (as.mapM f).outcome = .ok bs) (ha : a ∈ as) (hw : w ∈ (f a).warnings) :
    w ∈ (as.mapM f).warnings := by
  rw [warnings_mapM h]
  exact List.mem_flatMap.2 ⟨a, ha, hw⟩

theorem forall₂_comp {γ : Type} {R : α → β → Prop} {S : β → γ → Prop} {as : List α} {bs : List β}
    {cs : List γ} (h : List.Forall₂ R as bs) (h' : List.Forall₂ S bs cs) :
    List.Forall₂ (fun a c => ∃ b, R a b ∧ S b c) as cs := by
  induction h generalizing cs with
  | nil => exact List.forall₂_nil_left_iff.1 h' ▸ .nil
  | cons hab _ ih =>
    obtain ⟨c, rest, hbc, hrest, rfl⟩ := List.forall₂_cons_left_iff.1 h'
    exact .cons ⟨_, hab, hbc⟩ (ih hrest)

theorem exists_forall₂ {γ : Type} {R : α → β → Prop} {S : β → γ → Prop} {as : List α}
    {cs : List γ} (h : List.Forall₂ (fun a c => ∃ b, R a b ∧ S b c) as cs) :
    ∃ bs, List.Forall₂ R as bs ∧ List.Forall₂ S bs cs := by
  induction h with
  | nil => exact ⟨[], .nil, .nil⟩
  | cons h _ ih =>
    obtain ⟨b, hab, hbc⟩ := h
    obtain ⟨bs, has, hcs⟩ := ih
    exact ⟨b :: bs, .cons hab has, .cons hbc hcs⟩

theorem flatMap_eq_of_forall₂ {α β γ : Type} {R : α → β → Prop} {f : α → List γ} {g : β → List γ}
    {as : List α} {bs : List β} (h : List.Forall₂ R as bs)
    (hfg : ∀ a ∈ as, ∀ b, R a b → f a = g b) : as.flatMap f = bs.flatMap g := by
  induction h with
  | nil => rfl
  | cons hab _ ih =>
    rw [List.forall_mem_cons] at hfg
    rw [List.flatMap_cons, List.flatMap_cons, hfg.1 _ hab, ih hfg.2]

theorem map_eq_of_mapM {γ : Type} {f : α → Report β} {g : β → γ} {k : α → γ} {as : List α}
    {bs : List β} (hk : ∀ a ∈ as, ∀ b, (f a).outcome = .ok b → g b = k a)
    (h : (as.mapM f).outcome = .ok bs) : bs.map g = as.map k := by
  have hf := outcome_mapM_eq_ok.1 h
  clear h
  induction hf with
  | nil => rfl
  | cons hb _ ih =>
    rw [List.forall_mem_cons] at hk
    rw [List.map_cons, List.map_cons, hk.1 _ hb, ih hk.2]

/-- What holds at the start and is kept by each step that succeeds holds at the end. -/
theorem outcome_foldlM_induct {f : β → α → Report β} {P : β → Prop} {as : List α} {start b : β}
    (hs : P start) (step : ∀ a ∈ as, ∀ b c, P b → (f b a).outcome = .ok c → P c)
    (h : (as.foldlM f start).outcome = .ok b) : P b := by
  induction as generalizing start with
  | nil => exact Except.ok.inj h ▸ hs
  | cons a rest ih =>
    rw [List.foldlM_cons, outcome_bind_eq_ok] at h
    obtain ⟨c, hc, h⟩ := h
    rw [List.forall_mem_cons] at step
    exact ih (step.1 _ _ hs hc) step.2 h

section

variable {f : β → α → Report β} {P : β → Prop} {as : List α} {start b : β}

/-- Where each step warns of something that does not depend on what was made before, all steps warn
of it one after the other. -/
theorem warnings_foldlM {w : α → List Warning} (hs : P start)
    (step : ∀ a ∈ as, ∀ b c, P b → (f b a).outcome = .ok c → P c)
    (hw : ∀ a b, P b → (f b a).warnings = w a) (h : (as.foldlM f start).outcome = .ok b) :
    (as.foldlM f start).warnings = as.flatMap w := by
  induction as generalizing start with
  | nil => rfl
  | cons a rest ih =>
    rw [List.foldlM_cons, outcome_bind_eq_ok] at h
    obtain ⟨c, hc, h⟩ := h
    rw [List.forall_mem_cons] at step
    rw [List.foldlM_cons, warnings_bind_of_ok hc, hw a start hs, ih (step.1 _ _ hs hc) step.2 h,
      List.flatMap_cons]

/-- Where it does not depend on what was made before whether a step succeeds, all steps succeed
together just where each of them does. -/
theorem exists_outcome_foldlM_iff {Q : α → Prop} (hs : P start)
    (step : ∀ a ∈ as, ∀ b c, P b → (f b a).outcome = .ok c → P c)
    (hq : ∀ a b, P b → ((∃ c, (f b a).outcome = .ok c) ↔ Q a)) :
    (∃ b, (as.foldlM f start).outcome = .ok b) ↔ ∀ a ∈ as, Q a := by
  induction as generalizing start with
  | nil => exact ⟨fun _ => by simp, fun _ => ⟨start, rfl⟩⟩
  | cons a rest ih =>
    rw [List.forall_mem_cons] at step
    rw [List.foldlM_cons, List.forall_mem_cons, ← hq a start hs]
    constructor
    · rintro ⟨b, h⟩
      obtain ⟨c, hc, h⟩ := outcome_bind_eq_ok.1 h
      exact ⟨⟨c, hc⟩, (ih (step.1 _ _ hs hc) step.2).1 ⟨b, h⟩⟩
    · rintro ⟨⟨c, hc⟩, h⟩
      obtain ⟨b, hb⟩ := (ih (step.1 _ _ hs hc) step.2).2 h
      exact ⟨b, outcome_bind_eq_ok.2 ⟨c, hc, hb⟩⟩

end

end Report

end ContentSchema

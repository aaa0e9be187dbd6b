import ContentSchema.Options.Basic

/-! # Layers of options

Options merge with the empty layer as a unit, and however layers are grouped. So each option comes
from the last layer that sets it, where the three ways to set the policy count as one option.
-/

namespace ContentSchema

namespace PolicyOptions

variable {p base top : PolicyOptions} {policy : UnknownPolicy}

/-- What a layer says about unknown kinds: the policy by its name, or else whether to abort, or else
whether to go on. -/
inductive Settles (p : PolicyOptions) : UnknownPolicy → Prop
  | named {policy : UnknownPolicy} (h : p.unknown = some policy) : Settles p policy
  | abort {abort : Bool} (hu : p.unknown = none) (h : p.abortOnUnknown = some abort) :
      Settles p (if abort then .fail else .warn)
  | allow {allow : Bool} (hu : p.unknown = none) (ha : p.abortOnUnknown = none)
      (h : p.allowUnknown = some allow) : Settles p (if allow then .warn else .fail)

theorem policy?_eq_some_iff : p.policy? = some policy ↔ p.Settles policy := by
  obtain ⟨unknown, allow, abort⟩ := p
  constructor
  · intro h
    cases unknown with
    | some named =>
      obtain rfl := Option.some.inj h
      exact .named rfl
    | none =>
      cases abort with
      | some b =>
        obtain rfl := Option.some.inj h
        exact .abort rfl rfl
      | none =>
        obtain ⟨b, hb, rfl⟩ := Option.map_eq_some_iff.1 h
        exact .allow rfl rfl hb
  · rintro (h | ⟨hu, h⟩ | ⟨hu, ha, h⟩) <;> simp_all [policy?]

theorem isSome_policy? (p : PolicyOptions) : p.policy?.isSome = p.isSet := by
  obtain ⟨_ | unknown, _ | allow, _ | abort⟩ := p <;> rfl

theorem policy?_merge (base top : PolicyOptions) :
    (base.merge top).policy? = top.policy?.or base.policy? := by
  have h := isSome_policy? top
  rw [merge]
  cases ht : top.policy? with
  | none => simp_all
  | some policy => simp_all

theorem merge_assoc (a b c : PolicyOptions) : (a.merge b).merge c = a.merge (b.merge c) := by
  cases hc : c.isSet <;> cases hb : b.isSet <;> simp [merge, hb, hc]

theorem empty_merge (p : PolicyOptions) : empty.merge p = p := by
  obtain ⟨_ | unknown, _ | allow, _ | abort⟩ := p <;> rfl

theorem merge_empty (p : PolicyOptions) : p.merge empty = p := rfl

end PolicyOptions

theorem NamingOptions.merge_assoc (a b c : NamingOptions) :
    (a.merge b).merge c = a.merge (b.merge c) := by
  simp [merge, Option.or_assoc]

namespace Options

theorem mergeNaming_assoc (a b c : Option NamingOptions) :
    mergeNaming (mergeNaming a b) c = mergeNaming a (mergeNaming b c) := by
  rcases a with _ | a <;> rcases b with _ | b <;> rcases c with _ | c <;>
    simp [mergeNaming, NamingOptions.merge_assoc]

instance : Std.Associative merge where
  assoc a b c := by
    simp [merge, Option.or_assoc, PolicyOptions.merge_assoc, mergeNaming_assoc]

instance : Std.LawfulIdentity merge empty where
  left_id a := by
    obtain ⟨_, _, _, _, policy, _ | naming⟩ := a <;>
      simp [merge, empty, mergeNaming, PolicyOptions.empty_merge]
  right_id a := by
    obtain ⟨_, _, _, _, policy, _ | naming⟩ := a <;>
      simp [merge, empty, mergeNaming, PolicyOptions.merge_empty]

/-- The layers from left to right, merged into one. -/
def mergeAll (layers : List Options) : Options := layers.foldl merge .empty

section

variable {α : Type} {read : Options → Option α} {layers : List Options} {a : α}

/-- What the last layer that sets an option sets it to. -/
def last? (read : Options → Option α) (layers : List Options) : Option α :=
  layers.reverse.findSome? read

theorem last?_eq_some_iff :
    last? read layers = some a ↔
      ∃ before top after, layers = before ++ top :: after ∧ read top = some a ∧
        ∀ layer ∈ after, read layer = none := by
  rw [last?, List.findSome?_eq_some_iff]
  constructor
  · rintro ⟨later, top, earlier, h, ht, hn⟩
    refine ⟨earlier.reverse, top, later.reverse, ?_, ht, by simpa using hn⟩
    simpa using congrArg List.reverse h
  · rintro ⟨before, top, after, rfl, ht, hn⟩
    exact ⟨after.reverse, top, before.reverse, by simp, ht, by simpa using hn⟩

theorem last?_eq_none_iff : last? read layers = none ↔ ∀ layer ∈ layers, read layer = none := by
  simp [last?]

/-- An option that a layer replaces where it sets it, and leaves alone where it does not. -/
structure LastWins (read : Options → Option α) : Prop where
  unset : read .empty = none
  replaced : ∀ base top : Options, read (base.merge top) = (read top).or (read base)

/-- What a run over the layers keeps: the last value so far, or else that of the base. -/
theorem LastWins.foldl (h : LastWins read) (layers : List Options) (base : Options) :
    read (layers.foldl merge base) = (last? read layers).or (read base) := by
  induction layers generalizing base with
  | nil => rfl
  | cons top rest ih =>
    rw [List.foldl_cons, ih, h.replaced, last?, last?, List.reverse_cons, List.findSome?_append,
      List.findSome?_singleton, Option.or_assoc]

theorem LastWins.mergeAll (h : LastWins read) (layers : List Options) :
    read (mergeAll layers) = last? read layers := by
  rw [Options.mergeAll, h.foldl, h.unset, Option.or_none]

end

theorem LastWins.naming {α : Type} {read : NamingOptions → Option α}
    (h : ∀ base top : NamingOptions, read (base.merge top) = (read top).or (read base)) :
    LastWins fun layer => layer.naming.bind read where
  unset := rfl
  replaced base top := by
    obtain ⟨_, _, _, _, _, _ | base⟩ := base <;> obtain ⟨_, _, _, _, _, _ | top⟩ := top <;>
      simp [merge, mergeNaming, h]

theorem LastWins.policy : LastWins fun layer => layer.policy.policy? where
  unset := rfl
  replaced base top := PolicyOptions.policy?_merge base.policy top.policy

theorem naming_resolve (o : Options) :
    o.resolve.naming = {
      schemaSuffix := (o.naming.bind (·.schemaSuffix)).getD "Schema"
      typePrefix := (o.naming.bind (·.typePrefix)).getD ""
      typeSuffix := (o.naming.bind (·.typeSuffix)).getD ""
      abbreviations := ((o.naming.bind (·.abbreviations)).map
        (·.map NamingOptions.resolve.asciiLower)).getD ["seo", "cta", "url", "id"] } := by
  obtain ⟨_, _, _, _, _, _ | naming⟩ := o <;> rfl

theorem unknown_mergeAll (layers : List Options) :
    (∃ before top after, layers = before ++ top :: after ∧
        (∀ layer ∈ after, ¬ layer.policy.isSet) ∧
        top.policy.Settles (mergeAll layers).resolve.unknown) ∨
      (∀ layer ∈ layers, ¬ layer.policy.isSet) ∧ (mergeAll layers).resolve.unknown = .warn := by
  have unset (layer : Options) : layer.policy.policy? = none ↔ ¬ layer.policy.isSet := by
    rw [← PolicyOptions.isSome_policy?]
    simp
  have hm := LastWins.policy.mergeAll layers
  simp only [resolve, hm, ← unset]
  cases h : last? (fun layer => layer.policy.policy?) layers with
  | none => exact .inr ⟨last?_eq_none_iff.1 h, rfl⟩
  | some policy =>
    obtain ⟨before, top, after, hl, ht, hn⟩ := last?_eq_some_iff.1 h
    exact .inl ⟨before, top, after, hl, hn, PolicyOptions.policy?_eq_some_iff.1 ht⟩

/-- The demand to abort would come first, but it stands in a lower layer. -/
example : (mergeAll [
    { empty with policy.abortOnUnknown := some true },
    { empty with policy.allowUnknown := some true },
    { empty with flat := some true }]).resolve.unknown = .warn := rfl

end Options

/-- Layers can be grouped at will, and the empty one changes nothing. Of a list of layers, the last
one that sets an option decides on it, and the last one that sets one of the three policy options
decides on the policy by itself. What no layer sets has its default. -/
theorem last_layer_wins (layers : List Options) :
    (∀ a b c : Options, (a.merge b).merge c = a.merge (b.merge c)) ∧
    (∀ a : Options, Options.empty.merge a = a ∧ a.merge .empty = a) ∧
    (Options.mergeAll layers).input = Options.last? (·.input) layers ∧
    (Options.mergeAll layers).output = Options.last? (·.output) layers ∧
    (Options.mergeAll layers).resolve.passthrough =
      (Options.last? (·.passthrough) layers).getD false ∧
    (Options.mergeAll layers).resolve.flat = (Options.last? (·.flat) layers).getD false ∧
    (Options.mergeAll layers).resolve.naming = {
      schemaSuffix := (Options.last? (·.naming.bind (·.schemaSuffix)) layers).getD "Schema"
      typePrefix := (Options.last? (·.naming.bind (·.typePrefix)) layers).getD ""
      typeSuffix := (Options.last? (·.naming.bind (·.typeSuffix)) layers).getD ""
      abbreviations := ((Options.last? (·.naming.bind (·.abbreviations)) layers).map
        (·.map NamingOptions.resolve.asciiLower)).getD ["seo", "cta", "url", "id"] } ∧
    ((∃ before top after, layers = before ++ top :: after ∧
        (∀ layer ∈ after, ¬ layer.policy.isSet) ∧
        top.policy.Settles (Options.mergeAll layers).resolve.unknown) ∨
      (∀ layer ∈ layers, ¬ layer.policy.isSet) ∧
        (Options.mergeAll layers).resolve.unknown = .warn) := by
  have input : Options.LastWins (·.input) := ⟨rfl, fun _ _ => rfl⟩
  have output : Options.LastWins (·.output) := ⟨rfl, fun _ _ => rfl⟩
  have passthrough : Options.LastWins (·.passthrough) := ⟨rfl, fun _ _ => rfl⟩
  have flat : Options.LastWins (·.flat) := ⟨rfl, fun _ _ => rfl⟩
  have naming {α : Type} (read : NamingOptions → Option α)
      (h : ∀ base top : NamingOptions, read (base.merge top) = (read top).or (read base)) :
      (Options.mergeAll layers).naming.bind read =
        Options.last? (fun layer => layer.naming.bind read) layers :=
    (Options.LastWins.naming h).mergeAll layers
  refine ⟨Std.Associative.assoc, fun a => ⟨Std.LawfulLeftIdentity.left_id a,
    Std.LawfulRightIdentity.right_id a⟩, input.mergeAll layers, output.mergeAll layers, ?_, ?_, ?_,
    Options.unknown_mergeAll layers⟩
  · rw [Options.resolve, passthrough.mergeAll]
  · rw [Options.resolve, flat.mergeAll]
  · rw [Options.naming_resolve, naming _ fun _ _ => rfl, naming _ fun _ _ => rfl,
      naming _ fun _ _ => rfl, naming _ fun _ _ => rfl]

end ContentSchema

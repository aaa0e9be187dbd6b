import ContentSchema.CommandLine.Arguments
import ContentSchema.Proofs.Entries
import ContentSchema.Proofs.Report

/-! # Readings of arguments

Arguments that are accepted spell options one after the other. What is read from them is which
switches are among these, and which settings with which values.
-/

namespace ContentSchema

theorem UnknownPolicy.name_of_ofName? {value : String} {policy : UnknownPolicy}
    (h : UnknownPolicy.ofName? value = some policy) : policy.name = value := by
  have hm := Entries.mem_of_lookup h
  simp only [UnknownPolicy.variants, List.mem_cons, Prod.mk.injEq, List.not_mem_nil, or_false] at hm
  rcases hm with ⟨rfl, rfl⟩ | ⟨rfl, rfl⟩ | ⟨rfl, rfl⟩ <;> rfl

namespace CommandLine

inductive Use where
  | switch (s : Switch)
  | setting (s : Setting) (value : String)

/-- These arguments spell one option. A value of its own has to be told from an option. -/
inductive Use.Spelled : Use → List String → Prop
  | switch {name : String} {s : Switch} (h : (name, s) ∈ Switch.names) :
    Spelled (.switch s) ["--" ++ name]
  | long {name value : String} {s : Setting} (h : (name, s) ∈ Setting.names)
    (hv : isValue value) : Spelled (.setting s value) ["--" ++ name, value]
  | longJoined {name value : String} {s : Setting} (h : (name, s) ∈ Setting.names) :
    Spelled (.setting s value) ["--" ++ name ++ "=" ++ value]
  | short {letter : Char} {value : String} {s : Setting} (h : (letter, s) ∈ Setting.letters)
    (hv : isValue value) : Spelled (.setting s value) [String.ofList ['-', letter], value]
  | shortEqual {letter : Char} {value : String} {s : Setting} (h : (letter, s) ∈ Setting.letters) :
    Spelled (.setting s value) [String.ofList ['-', letter, '='] ++ value]
  | shortJoined {letter : Char} {value : String} {s : Setting}
    (h : (letter, s) ∈ Setting.letters) (hn : value ≠ "") :
    Spelled (.setting s value) [String.ofList ['-', letter] ++ value]

/-- The arguments spell these options. Two dashes may stand at the end. -/
inductive Spelled : List String → List Use → Prop
  | nil : Spelled [] []
  | ending : Spelled ["--"] []
  | cons {use : Use} {words rest : List String} {uses : List Use} (h : use.Spelled words)
    (hr : Spelled rest uses) : Spelled (words ++ rest) (use :: uses)

def Setting.value? (a : Arguments) : Setting → Option String
  | input => a.input
  | output => a.output
  | unknown => a.unknown.map UnknownPolicy.name
  | options => a.options

namespace Word

variable {argument shown : String}

theorem divide_equals (text : List Char) :
    text.takeWhile (· != '=') = text ∧ (text.dropWhile (· != '=')).tail? = none ∨
      ∃ name value, text = name ++ '=' :: value ∧ text.takeWhile (· != '=') = name ∧
        (text.dropWhile (· != '=')).tail? = some value := by
  have ht : text.takeWhile (· != '=') ++ text.dropWhile (· != '=') = text :=
    List.takeWhile_append_dropWhile
  have hd := List.head?_dropWhile_not (· != '=') text
  cases he : text.dropWhile (· != '=') with
  | nil =>
    rw [he, List.append_nil] at ht
    exact .inl ⟨ht, rfl⟩
  | cons c value =>
    rw [he] at ht hd
    obtain rfl : c = '=' := by simpa using hd
    exact .inr ⟨_, value, ht.symm, rfl, rfl⟩

def Spells (argument : String) : Word → Prop
  | stop _ => True
  | switch _ s => (Use.switch s).Spelled [argument]
  | setting _ s (some value) => (Use.setting s value).Spelled [argument]
  | setting _ s none => ∀ value, isValue value → (Use.setting s value).Spelled [argument, value]
  | ending => argument = "--"

theorem spells_refused : (refused argument).Spells argument := trivial

theorem spells_ofLong {text : List Char} (h : argument.toList = '-' :: '-' :: text) :
    (ofLong argument text).Spells argument := by
  have ha : argument = "--" ++ String.ofList text := by
    rw [← String.toList_inj, h]
    simp
  rcases divide_equals text with ⟨hn, hv⟩ | ⟨name, value, ht, hn, hv⟩
  · simp only [ofLong, hv, hn, Option.map_none]
    cases hs : Setting.names.lookup (String.ofList text) with
    | some s =>
      intro v hv
      exact ha ▸ .long (Entries.mem_of_lookup hs) hv
    | none =>
      dsimp only
      split
      · next s hs => exact ha ▸ .switch (Entries.mem_of_lookup hs)
      · split
        · trivial
        · split <;> trivial
  · simp only [ofLong, hv, hn, Option.map_some]
    cases hs : Setting.names.lookup (String.ofList name) with
    | some s =>
      have hj : argument = "--" ++ String.ofList name ++ "=" ++ String.ofList value := by
        rw [← String.toList_inj, h, ht]
        simp
      exact hj ▸ .longJoined (Entries.mem_of_lookup hs)
    | none => trivial

theorem spells_ofShort {letter : Char} {text : List Char}
    (h : argument.toList = '-' :: letter :: text) :
    (ofShort argument letter text).Spells argument := by
  have ha : argument = String.ofList ('-' :: letter :: text) := by rw [← h, String.ofList_toList]
  unfold ofShort
  split
  case h_1 s hs =>
    obtain ⟨before, after, hl, -⟩ := List.lookup_eq_some_iff.1 hs
    have hm : (letter, s) ∈ Setting.letters := by simp [hl]
    split
    · intro v hv
      exact ha ▸ .short hm hv
    · next value =>
      have he : argument = String.ofList ['-', letter, '='] ++ String.ofList value := by
        rw [ha, ← String.ofList_append]
        rfl
      exact he ▸ .shortEqual hm
    · next hn _ =>
      have he : argument = String.ofList ['-', letter] ++ String.ofList text := by
        rw [ha, ← String.ofList_append]
        rfl
      exact he ▸ .shortJoined hm (by simpa using hn)
  case h_2 =>
    split
    · trivial
    · split <;> trivial

theorem spells_ofArgument (argument : String) : (ofArgument argument).Spells argument := by
  unfold ofArgument
  split
  case h_1 h => exact String.toList_inj.1 h
  case h_2 h => exact spells_ofLong h
  case h_3 h => exact spells_ofShort h
  case h_4 => exact spells_refused

end Word

namespace Setting

variable {a b : Arguments} {value : String} {s : Setting}

theorem isGiven_eq (a : Arguments) (s : Setting) : s.isGiven a = (s.value? a).isSome := by
  cases s <;> simp [isGiven, value?]

theorem of_give (h : s.give a value = some b) :
    s.value? b = some value ∧ (∀ t, t ≠ s → t.value? b = t.value? a) ∧
      ∀ t : Switch, t.isOn b = t.isOn a := by
  have path {c : Arguments} (h : (if value.isEmpty then none else some c) = some b) : c = b := by
    split at h
    · cases h
    · exact Option.some.inj h
  cases s with
  | unknown =>
    obtain ⟨p, hp, rfl⟩ := Option.map_eq_some_iff.1 h
    refine ⟨congrArg some (UnknownPolicy.name_of_ofName? hp), ?_, ?_⟩
    · rintro (_ | _ | _ | _) ht <;> first | rfl | exact absurd rfl ht
    · rintro (_ | _ | _ | _ | _) <;> rfl
  | input | output | options =>
    obtain rfl := path h
    refine ⟨rfl, ?_, ?_⟩
    · rintro (_ | _ | _ | _) ht <;> first | rfl | exact absurd rfl ht
    · rintro (_ | _ | _ | _ | _) <;> rfl

end Setting

namespace Switch

variable {a : Arguments} {s : Switch}

theorem isOn_turnOn (t : Switch) : t.isOn (s.turnOn a) ↔ t.isOn a ∨ t = s := by
  cases s <;> cases t <;> simp [isOn, turnOn]

theorem value?_turnOn (t : Setting) : t.value? (s.turnOn a) = t.value? a := by
  cases s <;> cases t <;> rfl

end Switch

namespace Arguments

variable {a b c : Arguments} {words rest : List String} {uses : List Use}

/-- What `b` holds is what `a` holds and what these options add. -/
structure Adds (a : Arguments) (uses : List Use) (b : Arguments) : Prop where
  switches : ∀ s : Switch, s.isOn b ↔ s.isOn a ∨ .switch s ∈ uses
  settings : ∀ (s : Setting) value, s.value? b = some value ↔
    s.value? a = some value ∨ .setting s value ∈ uses

theorem adds_nil : a.Adds [] a := ⟨by simp, by simp⟩

theorem Adds.cons {use : Use} (h : a.Adds [use] b) (hr : b.Adds uses c) :
    a.Adds (use :: uses) c := by
  constructor
  · intro s
    rw [hr.switches, h.switches, List.mem_singleton, or_assoc, List.mem_cons]
  · intro s value
    rw [hr.settings, h.settings, List.mem_singleton, or_assoc, List.mem_cons]

theorem adds_of_switch {shown : String} {s : Switch} (h : s.take shown a = .ok b) :
    a.Adds [.switch s] b := by
  unfold Switch.take at h
  split at h
  · cases h
  · obtain rfl := Except.ok.inj h
    constructor
    · intro t
      simp [Switch.isOn_turnOn]
    · intro t value
      simp [Switch.value?_turnOn]

theorem adds_of_setting {shown value : String} {s : Setting} (h : s.take shown value a = .ok b) :
    a.Adds [.setting s value] b := by
  unfold Setting.take at h
  split at h
  · cases h
  · next hn =>
    split at h
    · next c hc =>
      obtain rfl := Except.ok.inj h
      obtain ⟨hs, ht, hw⟩ := Setting.of_give hc
      have hv : s.value? a = none := by simpa [Setting.isGiven_eq] using hn
      constructor
      · intro t
        simp [hw]
      · intro t v
        by_cases he : t = s
        · subst he
          simp [hs, hv, eq_comm]
        · simp [ht t he, he]
    · cases h

/-- What is taken in first is an option with its value, unless two dashes are all there is. -/
theorem take_cons {argument : String} (h : take a (argument :: rest) = .ok b) :
    argument = "--" ∧ rest = [] ∧ b = a ∨
      ∃ use words later c, use.Spelled (argument :: words) ∧ words ++ later = rest ∧
        a.Adds [use] c ∧ take c later = .ok b := by
  have ha := Word.spells_ofArgument argument
  rw [take.eq_def] at h
  dsimp only at h
  cases hw : Word.ofArgument argument with
  | stop why =>
    simp only [hw] at h
    cases h
  | ending =>
    simp only [hw] at h
    split at h
    · exact .inl ⟨(hw ▸ ha :), rfl, (Except.ok.inj h).symm⟩
    · cases h
  | switch shown s =>
    simp only [hw] at h
    obtain ⟨c, hc, h⟩ := bind_eq_ok.1 h
    exact .inr ⟨_, [], rest, c, (hw ▸ ha :), rfl, adds_of_switch hc, h⟩
  | setting shown s value =>
    cases value with
    | some value =>
      simp only [hw] at h
      obtain ⟨c, hc, h⟩ := bind_eq_ok.1 h
      exact .inr ⟨_, [], rest, c, (hw ▸ ha :), rfl, adds_of_setting hc, h⟩
    | none =>
      simp only [hw] at h
      split at h
      · cases h
      · next value later =>
        split at h
        · next hv =>
          obtain ⟨c, hc, h⟩ := bind_eq_ok.1 h
          rw [hw] at ha
          exact .inr ⟨_, [value], later, c, ha value hv, rfl, adds_of_setting hc, h⟩
        · cases h

/-- Arguments that are taken in spell options, and add these. -/
theorem exists_spelled_of_take (h : take a words = .ok b) :
    ∃ uses, Spelled words uses ∧ a.Adds uses b := by
  induction hn : words.length using Nat.strongRecOn generalizing a words with
  | ind n ih =>
    match words with
    | [] => exact ⟨[], .nil, Except.ok.inj h ▸ adds_nil⟩
    | argument :: rest =>
      rcases take_cons h with ⟨rfl, rfl, rfl⟩ | ⟨use, words, later, c, hu, rfl, hc, h⟩
      · exact ⟨[], .ending, adds_nil⟩
      · have hl : later.length < n := by
          rw [← hn, List.length_cons, List.length_append]
          omega
        obtain ⟨uses, hs, hr⟩ := ih later.length hl h rfl
        exact ⟨use :: uses, .cons hu hs, hc.cons hr⟩

/-- The arguments spell the options that `a` holds, and none that exclude each other. -/
def Reads (a : Arguments) (arguments : List String) : Prop :=
  ∃ uses, Spelled arguments uses ∧
    (∀ s : Switch, s.isOn a ↔ .switch s ∈ uses) ∧
    (∀ (s : Setting) value, s.value? a = some value ↔ .setting s value ∈ uses) ∧
    ¬ (.switch .emitStored ∈ uses ∧ .switch .fromStored ∈ uses) ∧
    ∀ value, ¬ (.switch .abortOnUnknown ∈ uses ∧ .setting .unknown value ∈ uses)

theorem reads_of_ofList {arguments : List String} (h : ofList arguments = .ok a) :
    a.Reads arguments := by
  obtain ⟨b, ht, hc⟩ := bind_eq_ok.1 h
  obtain ⟨uses, hu, hs, hv⟩ := exists_spelled_of_take ht
  have hs (s : Switch) : s.isOn b ↔ .switch s ∈ uses := by
    rw [hs]
    cases s <;> simp [Switch.isOn, empty]
  have hv (s : Setting) (value : String) : s.value? b = some value ↔ .setting s value ∈ uses := by
    rw [hv]
    cases s <;> simp [Setting.value?, empty]
  unfold check at hc
  split at hc
  · cases hc
  · split at hc
    · cases hc
    · next hu' he =>
      obtain rfl := Except.ok.inj hc
      refine ⟨uses, hu, hs, hv, ?_, ?_⟩
      · simpa [← hs, Switch.isOn] using he
      · intro value
        rw [← hs, ← hv]
        rintro ⟨ha, hp⟩
        obtain ⟨p, hp, -⟩ := Option.map_eq_some_iff.1 hp
        have ha : b.abortOnUnknown := ha
        exact hu' (by rw [ha, hp]; rfl)

end Arguments

end CommandLine

end ContentSchema

import ContentSchema.Proofs.Graph.Stored

/-! # Entries of a stored graph that are no nodes

An entry that cannot be read as a node, however deep its fault lies, stands for the node that passes
everything. Nothing else of the module depends on it: the other entries, and the references to it,
are treated as if that node had been stored in its place.
-/

namespace ContentSchema

open Json

namespace Json.Value

def mapMember (key : String) (f : Value → Value) : Value → Value
  | object members => object (members.map fun m => (m.1, if m.1 = key then f m.2 else m.2))
  | v => v

theorem member?_mapMember (key : String) (f : Value → Value) (v : Value) (k : String) :
    (v.mapMember key f).member? k = (v.member? k).map fun m => if k = key then f m else m := by
  cases v with
  | object members =>
    simp only [mapMember, member?]
    induction members with
    | nil => rfl
    | cons m rest ih =>
      obtain ⟨k', v⟩ := m
      by_cases h : k = k'
      · simp [h]
      · simp only [List.map_cons, List.lookup_cons, beq_eq_false_iff_ne.2 h, ih]
  | _ => rfl

end Json.Value

namespace Graph

def fault? (entry : Value) : Option Fault :=
  match Node.ofValue entry with
  | .ok _ => none
  | .error fault => some fault

/-- The entry, or one that passes everything if it is no node. -/
def soundEntry (entry : Value) : Value :=
  if (fault? entry).isSome then .object [("kind", .str "unknown")] else entry

def soundEntries : Value → Value
  | .object entries => .object (entries.map fun e => (e.1, soundEntry e.2))
  | v => v

/-- The document with an entry that passes everything in place of each that is no node. -/
def isolated (document : Value) : Value := document.mapMember "schemas" soundEntries

def faulty (entries : List (String × Value)) : List (String × Fault) :=
  entries.filterMap fun e => (fault? e.2).map (e.1, ·)

def ownWarnings (document : Value) : List String :=
  match document.member? "warnings" with
  | some (.list warnings) => warnings.filterMap Value.text?
  | _ => []

def entryNode (entry : Value) : Node := (Node.ofValue entry).toOption.getD .any

def entryNodes (entries : List (String × Value)) : List (String × Node) :=
  entries.map fun e => (e.1, entryNode e.2)

def printStored (settings : Settings) (document : Value) : Except Failure Generated := do
  let graph ← ofStored settings document
  graph.print settings

variable {settings : Settings} {document entry : Value} {entries : List (String × Value)}

theorem renderStored_eq_printStored {text : String}
    (h : (Document.ofText text).value? = some document) :
    renderStored text settings = printStored settings document := by
  simp only [renderStored, h, printStored]

theorem storedNode_of_none {e : String × Value} (h : fault? e.2 = none) :
    storedNode settings e = pure (e.1, entryNode e.2) := by
  unfold fault? at h
  split at h
  · next node hn => simp only [storedNode, entryNode, hn, Except.toOption, Option.getD_some]
  · cases h

theorem storedNode_of_some {e : String × Value} {fault : Fault} (h : fault? e.2 = some fault) :
    storedNode settings e =
      match settings.unknown with
      | .fail => Report.fail (.notANode e.1 fault)
      | .warn => ⟨[.notANode e.1 fault], .ok (e.1, entryNode e.2)⟩
      | .ignore => pure (e.1, entryNode e.2) := by
  unfold fault? at h
  split at h
  · cases h
  · next fault' hn =>
    obtain rfl := Option.some.inj h
    simp only [storedNode, entryNode, hn]
    cases settings.unknown <;> rfl

theorem faulty_cons_of_none {e : String × Value} (h : fault? e.2 = none) :
    faulty (e :: entries) = faulty entries := by
  rw [faulty, List.filterMap_cons, h]
  rfl

theorem faulty_cons_of_some {e : String × Value} {fault : Fault} (h : fault? e.2 = some fault) :
    faulty (e :: entries) = (e.1, fault) :: faulty entries := by
  rw [faulty, List.filterMap_cons, h]
  rfl

theorem mapM_storedNode_eq_pure
    (h : ∀ e ∈ entries, storedNode settings e = pure (e.1, entryNode e.2)) :
    entries.mapM (storedNode settings) = pure (entryNodes entries) := by
  rw [Report.mapM_congr h, List.mapM_pure, entryNodes]

theorem mapM_storedNode_of_sound (h : faulty entries = []) :
    entries.mapM (storedNode settings) = pure (entryNodes entries) := by
  apply mapM_storedNode_eq_pure
  intro e he
  exact storedNode_of_none (Option.map_eq_none_iff.1 (List.filterMap_eq_nil_iff.1 h e he))

theorem mapM_storedNode_ignore (h : settings.unknown = .ignore) :
    entries.mapM (storedNode settings) = pure (entryNodes entries) := by
  apply mapM_storedNode_eq_pure
  intro e _
  cases hf : fault? e.2 with
  | none => exact storedNode_of_none hf
  | some fault => rw [storedNode_of_some hf, h]

theorem mapM_storedNode_warn (h : settings.unknown = .warn) :
    entries.mapM (storedNode settings) =
      ⟨(faulty entries).map fun e => .notANode e.1 e.2, .ok (entryNodes entries)⟩ := by
  induction entries with
  | nil => rfl
  | cons e rest ih =>
    simp only [List.mapM_cons, ih, bind_pure_comp, Report.map_eq]
    cases hf : fault? e.2 with
    | none =>
      rw [storedNode_of_none hf, faulty_cons_of_none hf]
      rfl
    | some fault =>
      rw [storedNode_of_some hf, h, faulty_cons_of_some hf]
      rfl

theorem mapM_storedNode_fail (h : settings.unknown = .fail) {e : String × Fault}
    {later : List (String × Fault)} (hf : faulty entries = e :: later) :
    (entries.mapM (storedNode settings)).outcome = .error (.notANode e.1 e.2) := by
  induction entries with
  | nil => cases hf
  | cons e' rest ih =>
    rw [List.mapM_cons, Report.outcome_bind_eq_error]
    cases hn : fault? e'.2 with
    | none =>
      rw [faulty_cons_of_none hn] at hf
      exact .inr ⟨_, by rw [storedNode_of_none hn, Report.outcome_pure],
        Report.outcome_bind_eq_error.2 (.inl (ih hf))⟩
    | some fault =>
      rw [faulty_cons_of_some hn] at hf
      obtain ⟨rfl, -⟩ := List.cons.inj hf
      exact .inl (by rw [storedNode_of_some hn, h, Report.outcome_fail])

/-- A document of schemas is read entry by entry, and printed with what was warned of before. -/
theorem printStored_eq (h : document.member? "schemas" = some (.object entries)) :
    printStored settings document =
      (entries.mapM (storedNode settings)).outcome.bind fun nodes =>
        print ⟨Entries.ofList nodes,
          ownWarnings document ++ (entries.mapM (storedNode settings)).messages⟩ settings := by
  simp only [printStored, ofStored, h, Option.getD_some, ownWarnings]
  cases (entries.mapM (storedNode settings)).outcome <;> rfl

theorem member?_isolated (h : document.member? "schemas" = some (.object entries)) :
    (isolated document).member? "schemas" =
      some (.object (entries.map fun e => (e.1, soundEntry e.2))) := by
  rw [isolated, Value.member?_mapMember, h]
  rfl

theorem ownWarnings_isolated : ownWarnings (isolated document) = ownWarnings document := by
  have h : (isolated document).member? "warnings" = document.member? "warnings" := by
    rw [isolated, Value.member?_mapMember]
    simp
  rw [ownWarnings, h, ownWarnings]

theorem ofValue_unknown : Node.ofValue (.object [("kind", .str "unknown")]) = .ok .any := rfl

theorem fault?_soundEntry (entry : Value) : fault? (soundEntry entry) = none := by
  unfold soundEntry
  split
  · rw [fault?, ofValue_unknown]
  · next h => exact Option.not_isSome_iff_eq_none.1 h

theorem entryNode_soundEntry (entry : Value) : entryNode (soundEntry entry) = entryNode entry := by
  unfold soundEntry
  split
  · next h =>
    rw [fault?] at h
    split at h
    · cases h
    · next hn => simp only [entryNode, ofValue_unknown, hn, Except.toOption, Option.getD]
  · rfl

theorem faulty_sound (entries : List (String × Value)) :
    faulty (entries.map fun e => (e.1, soundEntry e.2)) = [] := by
  simp [faulty, fault?_soundEntry]

theorem entryNodes_sound (entries : List (String × Value)) :
    entryNodes (entries.map fun e => (e.1, soundEntry e.2)) = entryNodes entries := by
  simp [entryNodes, entryNode_soundEntry]

theorem printStored_isolated (h : document.member? "schemas" = some (.object entries)) :
    printStored settings (isolated document) =
      print ⟨Entries.ofList (entryNodes entries), ownWarnings document⟩ settings := by
  rw [printStored_eq (member?_isolated h), mapM_storedNode_of_sound (faulty_sound entries),
    entryNodes_sound, ownWarnings_isolated]
  simp [Except.bind, Report.messages]

end Graph

/-- An entry that is no node stands for the one that passes everything, whatever else the document
holds. So under each policy the module is the one of the document with such an entry in its place,
but where the policy fails it names the first entry that is no node, and where it warns, it warns of
each in turn, after what the document itself lists and before what the schemas give rise to. -/
theorem faulty_entries_isolated {document : Value} {entries : List (String × Value)}
    (settings : Settings) (h : document.member? "schemas" = some (.object entries)) :
    let sound := Graph.printStored settings (Graph.isolated document)
    let schemas := Entries.ofList (Graph.entryNodes entries)
    let report := Graph.toModule ⟨schemas, []⟩ settings
    let earlier := Graph.ownWarnings document
    (∀ text, (Document.ofText text).value? = some document →
      renderStored text settings = Graph.printStored settings document) ∧
    sound = report.outcome.map (fun m => ⟨m.render, earlier ++ report.messages⟩) ∧
    Graph.printStored settings document =
      match settings.unknown, Graph.faulty entries with
      | .ignore, _ => sound
      | .warn, faults => report.outcome.map fun m =>
        ⟨m.render, earlier ++ faults.map (fun e => (Warning.notANode e.1 e.2).message) ++
          report.messages⟩
      | .fail, [] => sound
      | .fail, e :: _ => .error (.notANode e.1 e.2) := by
  intro sound schemas report earlier
  have hs : sound = Graph.print ⟨schemas, earlier⟩ settings := Graph.printStored_isolated h
  refine ⟨fun text ht => Graph.renderStored_eq_printStored ht, hs, ?_⟩
  rw [Graph.printStored_eq h]
  cases hu : settings.unknown with
  | ignore =>
    rw [Graph.mapM_storedNode_ignore hu]
    simpa [Except.bind, Report.messages] using hs.symm
  | warn =>
    rw [Graph.mapM_storedNode_warn hu]
    simp only [Except.bind, Report.messages, List.map_map]
    rfl
  | fail =>
    cases hf : Graph.faulty entries with
    | nil =>
      rw [Graph.mapM_storedNode_of_sound hf]
      simpa [Except.bind, Report.messages] using hs.symm
    | cons e later => rw [Graph.mapM_storedNode_fail hu hf, Except.bind]

/-- Sound entries, one of them with a member that no node has, beside a field that is no node and a
list. The last entry refers to the one that holds the field, and to none. -/
def spoiled : List (String × Value) :=
  let reference (name : String) : Value :=
    .object [("kind", .str "unknown"),
      ("reference", .object [("name", .str name), ("target", .str "contentType")])]
  [("title", .object [("kind", .str "primitive"), ("primitive", .str "string"), ("note", .null)]),
    ("hero", .object [("kind", .str "object"), ("policy", .str "strip"),
      ("shape", .object [("image", .object [("kind", .str "optional"),
        ("inner", .object [("kind", .str "picture")])])])]),
    ("rows", .list [.bool true]),
    ("page", .object [("kind", .str "union"),
      ("branches", .list [reference "hero", reference "gone"])])]

def spoiledDocument : Value :=
  .object [("warnings", .list [.str "earlier", .bool true]), ("schemas", .object spoiled)]

theorem faulty_entries_isolated_spoiled :
    let picture : Fault :=
      .strangeVariant "picture" ["primitive", "object", "array", "optional", "union", "unknown"]
    let rows : Fault := .type .list (.record "ValidatorNode")
    let printed unknown := Graph.printStored ⟨false, unknown, false, .standard⟩
    spoiledDocument.member? "schemas" = some (.object spoiled) ∧
    Graph.faulty spoiled = [("hero", picture), ("rows", rows)] ∧
    printed .ignore spoiledDocument = printed .ignore (Graph.isolated spoiledDocument) ∧
    printed .fail spoiledDocument = .error (.notANode "hero" picture) ∧
    ∃ source, printed .warn (Graph.isolated spoiledDocument) =
        .ok ⟨source, ["earlier", (Warning.danglingReference "gone").message]⟩ ∧
      printed .warn spoiledDocument =
        .ok ⟨source, ["earlier", (Warning.notANode "hero" picture).message,
          (Warning.notANode "rows" rows).message, (Warning.danglingReference "gone").message]⟩ := by
  intro picture rows printed
  have hm : spoiledDocument.member? "schemas" = some (.object spoiled) := rfl
  have hf : Graph.faulty spoiled = [("hero", picture), ("rows", rows)] := rfl
  have hi := faulty_entries_isolated ⟨false, .ignore, false, .standard⟩ hm
  have hw := faulty_entries_isolated ⟨false, .warn, false, .standard⟩ hm
  have he := faulty_entries_isolated ⟨false, .fail, false, .standard⟩ hm
  rw [hf] at hw he
  exact ⟨hm, hf, hi.2.2, he.2.2, _, hw.2.1, hw.2.2⟩

end ContentSchema

/-! # Runs of characters

The longest stretches of a text whose characters all belong to a class.
-/

namespace ContentSchema.Text

/-- A run that has just ended joins the later ones unless it is empty. -/
def endRun (run : List Char) (later : List (List Char)) : List (List Char) :=
  if run.isEmpty then later else run :: later

/-- The run that a text begins with, and the later ones. -/
def splitRuns (keep : Char → Bool) : List Char → List Char × List (List Char)
  | [] => ([], [])
  | c :: rest =>
    let (run, later) := splitRuns keep rest
    if keep c then (c :: run, later) else ([], endRun run later)

def runs (keep : Char → Bool) (text : List Char) : List (List Char) :=
  let (run, later) := splitRuns keep text
  endRun run later

theorem mem_endRun {run r : List Char} {later : List (List Char)} :
    r ∈ endRun run later ↔ r = run ∧ run ≠ [] ∨ r ∈ later := by
  cases run <;> simp [endRun]

theorem splitRuns_keeps (keep : Char → Bool) (text : List Char) :
    (∀ c ∈ (splitRuns keep text).1, keep c) ∧
      ∀ r ∈ (splitRuns keep text).2, r ≠ [] ∧ ∀ c ∈ r, keep c := by
  induction text with
  | nil => simp [splitRuns]
  | cons c rest ih =>
    by_cases h : keep c
    · simpa [splitRuns, h] using ih
    · simp only [splitRuns, h, Bool.false_eq_true, if_false]
      refine ⟨by simp, fun r hr => ?_⟩
      rcases mem_endRun.1 hr with ⟨rfl, hne⟩ | hm
      · exact ⟨hne, ih.1⟩
      · exact ih.2 r hm

/-- A run is not empty, and all its characters belong to the class. -/
theorem keep_of_mem_runs {keep : Char → Bool} {text r : List Char} (h : r ∈ runs keep text) :
    r ≠ [] ∧ ∀ c ∈ r, keep c := by
  have hk := splitRuns_keeps keep text
  rcases mem_endRun.1 h with ⟨rfl, hne⟩ | hm
  · exact ⟨hne, hk.1⟩
  · exact hk.2 r hm

theorem splitRuns_of_forall {keep : Char → Bool} {text : List Char} (h : ∀ c ∈ text, keep c) :
    splitRuns keep text = (text, []) := by
  induction text with
  | nil => rfl
  | cons c rest ih =>
    rw [List.forall_mem_cons] at h
    simp [splitRuns, ih h.2, h.1]

theorem runs_of_forall {keep : Char → Bool} {text : List Char} (hne : text ≠ [])
    (h : ∀ c ∈ text, keep c) : runs keep text = [text] := by
  simp [runs, splitRuns_of_forall h, endRun, hne]

end ContentSchema.Text

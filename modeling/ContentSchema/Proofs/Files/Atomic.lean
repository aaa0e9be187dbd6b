import ContentSchema.Files.Tree
import ContentSchema.Proofs.Report

/-! # Atomic disks

A disk on which reading changes nothing, and on which a write either puts its text into one file or
changes nothing at all. The disk of a file tree is one.
-/

namespace ContentSchema

structure AtomicDisk (State Place File : Type) where
  disk : Disk (StateM State)
  file? : State → Place → Option File
  ofText : String → File
  /-- Where a path leads to. -/
  target : State → String → Except FileError Place
  run_read : ∀ path s, ((disk.read path).run s).2 = s
  run_isFile : ∀ path s, ((disk.isFile path).run s).2 = s
  run_write : ∀ path text s, (∃ e, (disk.write path text).run s = (.error e, s)) ∨
    ∃ place t, (disk.write path text).run s = (.ok (), t) ∧ target s path = .ok place ∧
      file? t place = some (ofText text) ∧ ∀ other, other ≠ place → file? t other = file? s other

namespace FileTree

theorem lookup_put (names other : List String) (text : String)
    (files : List (List String × String)) :
    (put names text files).lookup other =
      if other = names then some text else files.lookup other := by
  have lookup_cons (e : List String × String) (rest : List (List String × String)) :
      (e :: rest).lookup other = if other = e.1 then some e.2 else rest.lookup other := by
    rw [List.lookup_cons]
    by_cases h : other = e.1
    · rw [if_pos h, beq_iff_eq.2 h]
    · rw [if_neg h, beq_eq_false_iff_ne.2 h]
  induction files with
  | nil => rw [put, lookup_cons]
  | cons e rest ih =>
    rw [put]
    split
    · next h => rw [lookup_cons, lookup_cons, h]; split <;> rfl
    · next h =>
      rw [lookup_cons, lookup_cons, ih]
      by_cases he : other = e.1
      · rw [if_pos he, if_pos he, if_neg (he ▸ h)]
      · rw [if_neg he, if_neg he]

/-- A write that succeeds puts the text where the path leads to, and leaves all else as it is. -/
theorem write_eq_ok {tree after : FileTree} {path text : String}
    (h : tree.write path text = .ok after) :
    ∃ names, tree.target path = .ok names ∧ ∀ place,
      after.content? place = if place = .inside names then some text else tree.content? place := by
  obtain ⟨names, hn, h⟩ := bind_eq_ok.1 h
  obtain rfl := Except.ok.inj h
  refine ⟨names, hn, ?_⟩
  rintro (other | _)
  · simp [content?, lookup_put]
  · simp [content?]

theorem run_write (tree : FileTree) (path text : String) : (disk.write path text).run tree =
    match tree.write path text with
    | .ok after => (.ok (), after)
    | .error e => (.error e, tree) := by
  cases h : tree.write path text <;> simp [disk, h] <;> rfl

def atomicDisk : AtomicDisk FileTree Place String where
  disk := disk
  file? := content?
  ofText := id
  target tree path := (tree.target path).map .inside
  run_read _ _ := rfl
  run_isFile _ _ := rfl
  run_write path text tree := by
    rw [FileTree.run_write]
    cases h : tree.write path text with
    | error e => exact .inl ⟨e, rfl⟩
    | ok after =>
      obtain ⟨names, hn, hc⟩ := write_eq_ok h
      refine .inr ⟨.inside names, after, rfl, by rw [hn]; rfl, ?_, ?_⟩
      · rw [hc, if_pos rfl]
        rfl
      · intro other ho
        rw [hc, if_neg ho]

end FileTree

end ContentSchema

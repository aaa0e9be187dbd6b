import ContentSchema.Model.Links

/-! # Dependency order

A depth-first walk lists every content type after those that it links to, or finds content types
that link in a circle.
-/

namespace ContentSchema

/-- Things of which each leads to the next, and the last one to the first. -/
structure Circle (α : Type) where
  first : α
  later : List α

def Circle.map {α β : Type} (f : α → β) (circle : Circle α) : Circle β :=
  ⟨f circle.first, circle.later.map f⟩

namespace Order

variable {n : Nat}

/-- Visits a position: `off` are the positions not on the way to it, `way` is that way, and `done`
the positions listed so far. A position that is neither off the way nor listed closes a circle. -/
def visit (links : Fin n → List (Fin n)) (off way done : List (Fin n)) (here : Fin n) :
    Except (Circle (Fin n)) (List (Fin n)) :=
  if here ∈ done then .ok done
  else if _ : here ∈ off then do
    let done ← (links here).foldlM
      (fun done next => visit links (off.erase here) (way ++ [here]) done next) done
    return done ++ [here]
  else .error ⟨here, (way.dropWhile (· != here)).drop 1⟩
termination_by off.length
decreasing_by
  rw [List.length_erase_of_mem ‹here ∈ off›]
  have := List.length_pos_of_mem ‹here ∈ off›
  omega

def positions (links : Fin n → List (Fin n)) : Except (Circle (Fin n)) (List (Fin n)) :=
  (List.finRange n).foldlM (visit links (List.finRange n) []) []

end Order

namespace ContentType

variable (types : List ContentType)

/-- The last position of an id. -/
def position? (id : String) : Option (Fin types.length) :=
  (List.finRange types.length).reverse.find? fun i => types[i].id == id

/-- The positions that a content type links to; ids that have none are left out. -/
def links (place : Fin types.length) : List (Fin types.length) :=
  types[place].dependencies.filterMap (position? types)

/-- The content types in dependency order, or else content types that link in a circle. -/
def order : Except (Circle ContentType) (List ContentType) :=
  match Order.positions (links types) with
  | .ok positions => .ok (positions.map (types[·]))
  | .error circle => .error (circle.map (types[·]))

end ContentType

end ContentSchema

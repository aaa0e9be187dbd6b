import ContentSchema.Source.OfGraph
import Mathlib.Data.List.Basic

/-! # Statements of a module

A declaration is written as two statements or three. Each binds the name of a value or of a type, and
uses other names: at once, when a value is checked, or as types.
-/

namespace ContentSchema.Source

/-- A name that occurs in a statement. -/
inductive Use where
  /-- A value that has to be there when the statement runs. -/
  | value (name : String)
  /-- A value that is looked up when another value is checked. -/
  | deferred (name : String)
  | type (name : String)
  /-- A value of which only the type is asked for. -/
  | typeOf (name : String)
  deriving DecidableEq

namespace Expr

mutual

/-- The names that occur in the expression, that of the validation library apart. -/
def uses : Expr → List Use
  | primitive _ => []
  | object members _ => memberUses members
  | array element => element.uses
  | optional inner => inner.uses
  | union branches => branchUses branches
  | unknown => []
  | constant name => [.value name]
  | deferred names => names.map .deferred
  | cast body type => body.uses ++ [.type type]

def memberUses : List (String × Expr) → List Use
  | [] => []
  | (_, e) :: rest => e.uses ++ memberUses rest

def branchUses : List Expr → List Use
  | [] => []
  | e :: rest => e.uses ++ branchUses rest

end

theorem memberUses_eq_flatMap (members : List (String × Expr)) :
    memberUses members = members.flatMap (·.2.uses) := by
  induction members with
  | nil => rfl
  | cons e rest ih => rw [memberUses, ih, List.flatMap_cons]

theorem branchUses_eq_flatMap (branches : List Expr) :
    branchUses branches = branches.flatMap uses := by
  induction branches with
  | nil => rfl
  | cons e rest ih => rw [branchUses, ih, List.flatMap_cons]

end Expr

theorem LinkField.uses_expr (f : LinkField) : f.expr.uses = f.constants.map .deferred := by
  obtain ⟨key, types, constants, list, optional⟩ := f
  cases list <;> cases optional <;> rfl

inductive Statement where
  | const (name : String) (body : Expr)
  | schema (name : String) (body : Expr) (assertion : Option String)
  /-- The type of a schema. -/
  | inferred (type constant : String)
  /-- The type of a base together with links. -/
  | joined (type base : String) (fields : List LinkField)
  /-- A base together with links. -/
  | extended (constant type base : String) (fields : List LinkField)

namespace Statement

def constText (name : String) (body : Expr) : String :=
  "const " ++ name ++ " = " ++ body.render 0 ++ ";"

def schemaText (name : String) (body : Expr) (assertion : Option String) : String :=
  "export const " ++ name ++ " = " ++ body.render 0 ++
    (assertion.map fun t => " as z.ZodType<" ++ t ++ ">").getD "" ++ ";"

def inferredText (type constant : String) : String :=
  "export type " ++ type ++ " = " ++ Declaration.inferred constant ++ ";"

def joinedText (type base : String) (fields : List LinkField) : String :=
  "export type " ++ type ++ " = " ++ Declaration.inferred base ++ " & \x7b\n" ++
    Declaration.fieldsType (fields.map (·.typeMember)) ++ "\n\x7d;"

def extendedText (constant type base : String) (fields : List LinkField) : String :=
  "export const " ++ constant ++ ": z.ZodType<" ++ type ++ "> = " ++ base ++ ".extend(\x7b\n" ++
    "  fields: " ++ base ++ ".shape.fields.extend(\x7b\n" ++
    String.intercalate "\n" (fields.map (·.schemaMember)) ++ "\n  \x7d),\n\x7d);"

def render : Statement → String
  | const name body => constText name body
  | schema name body assertion => schemaText name body assertion
  | inferred type constant => inferredText type constant
  | joined type base fields => joinedText type base fields
  | extended constant type base fields => extendedText constant type base fields

def values : Statement → List String
  | const name _ => [name]
  | schema name _ _ => [name]
  | inferred _ _ => []
  | joined _ _ _ => []
  | extended constant _ _ _ => [constant]

def types : Statement → List String
  | const _ _ => []
  | schema _ _ _ => []
  | inferred type _ => [type]
  | joined type _ _ => [type]
  | extended _ _ _ _ => []

def uses : Statement → List Use
  | const _ body => body.uses
  | schema _ body assertion => body.uses ++ assertion.toList.map .type
  | inferred _ constant => [.typeOf constant]
  | joined _ base fields => .typeOf base :: fields.flatMap (·.types.map .type)
  | extended _ type base fields => .type type :: .value base :: fields.flatMap (·.expr.uses)

end Statement

namespace Declaration

/-- The name of the object that is declared before the links are added to it. -/
def base? : Declaration → Option String
  | schema _ _ _ _ => none
  | linked base _ _ _ _ => some base

def statements : Declaration → List Statement
  | schema constant type body assertion =>
    [.schema constant body assertion, .inferred type constant]
  | linked base constant type body fields =>
    [.const base body, .joined type base fields, .extended constant type base fields]

theorem render_schema (constant type : String) (body : Expr) (assertion : Option String) :
    (schema constant type body assertion).render =
      "export const " ++ constant ++ " = " ++ body.render 0 ++
        (assertion.map fun t => " as z.ZodType<" ++ t ++ ">").getD "" ++ (";" ++ "\n\n") ++
        "export type " ++ type ++ " = " ++ inferred constant ++ ";" := rfl

theorem render_linked (base constant type : String) (body : Expr) (fields : List LinkField) :
    (linked base constant type body fields).render =
      "const " ++ base ++ " = " ++ body.render 0 ++ (";" ++ "\n\n") ++
        "export type " ++ type ++ " = " ++ inferred base ++ " & \x7b\n" ++
        fieldsType (fields.map (·.typeMember)) ++ ("\n\x7d;" ++ "\n\n") ++
        "export const " ++ constant ++ ": z.ZodType<" ++ type ++ "> = " ++ base ++
        ".extend(\x7b\n" ++ "  fields: " ++ base ++ ".shape.fields.extend(\x7b\n" ++
        String.intercalate "\n" (fields.map (·.schemaMember)) ++ "\n  \x7d),\n\x7d);" := rfl

theorem render_eq_paragraphs (d : Declaration) :
    d.render = Module.paragraphs (d.statements.map (·.render)) := by
  cases d with
  | schema constant type body assertion =>
    simp only [statements, List.map_cons, List.map_nil, Module.paragraphs,
      String.intercalate_cons_cons, String.intercalate_singleton, Statement.render, render_schema]
    delta Statement.schemaText Statement.inferredText
    simp only [String.append_assoc]
  | linked base constant type body fields =>
    simp only [statements, List.map_cons, List.map_nil, Module.paragraphs,
      String.intercalate_cons_cons, String.intercalate_singleton, Statement.render, render_linked]
    delta Statement.constText Statement.joinedText Statement.extendedText
    simp only [String.append_assoc]

theorem render_ne_empty (d : Declaration) : d.render ≠ "" := by
  intro h
  cases d with
  | schema constant type body assertion =>
    rw [render_schema, String.append_eq_empty_iff] at h
    exact absurd h.2 (by decide)
  | linked base constant type body fields =>
    rw [render_linked, String.append_eq_empty_iff] at h
    exact absurd h.2 (by decide)

theorem statements_ne_nil (d : Declaration) : d.statements ≠ [] := by
  cases d <;> simp [statements]

end Declaration

namespace Module

def declarations (m : Module) : List Declaration := m.builtins ++ m.contentTypes

def statements (m : Module) : List Statement := m.declarations.flatMap (·.statements)

def preamble (m : Module) : String := header ++ "\n\n" ++ String.intercalate "\n" m.imports

@[simp] theorem paragraphs_singleton (part : String) : paragraphs [part] = part :=
  String.intercalate_singleton

theorem paragraphs_append {parts later : List String} (h : parts ≠ []) (hl : later ≠ []) :
    paragraphs (parts ++ later) = paragraphs parts ++ "\n\n" ++ paragraphs later :=
  String.intercalate_append_of_ne_nil h hl

theorem paragraphs_flatMap {α : Type} {f : α → List String} {as : List α}
    (h : ∀ a ∈ as, f a ≠ []) :
    paragraphs (as.map fun a => paragraphs (f a)) = paragraphs (as.flatMap f) := by
  induction as with
  | nil => rfl
  | cons a rest ih =>
    rw [List.forall_mem_cons] at h
    by_cases hr : rest = []
    · subst hr
      simp [paragraphs]
    · obtain ⟨b, later, rfl⟩ := List.exists_cons_of_ne_nil hr
      have hb : (b :: later).flatMap f ≠ [] := by simp [h.2 b List.mem_cons_self]
      rw [List.map_cons, List.map_cons, List.flatMap_cons, paragraphs_append h.1 hb, ← ih h.2]
      exact String.intercalate_cons_cons

theorem paragraphs_eq_empty_iff {parts : List String} (h : ∀ part ∈ parts, part ≠ "") :
    paragraphs parts = "" ↔ parts = [] := by
  match parts with
  | [] => simp [paragraphs]
  | [part] => simpa [paragraphs] using h
  | part :: next :: later =>
    simp [paragraphs, String.intercalate_cons_cons, String.append_eq_empty_iff]

theorem paragraphs_filter {sections : List (List String)}
    (h : ∀ parts ∈ sections, ∀ part ∈ parts, part ≠ "") :
    paragraphs ((sections.map paragraphs).filter (!·.isEmpty)) = paragraphs sections.flatten := by
  have hf : (sections.map paragraphs).filter (!·.isEmpty) =
      (sections.filter (!·.isEmpty)).map paragraphs := by
    rw [List.filter_map]
    refine congrArg _ (List.filter_congr fun parts hm => ?_)
    have he := paragraphs_eq_empty_iff (h parts hm)
    rw [← String.isEmpty_iff, ← List.isEmpty_iff, Bool.coe_iff_coe] at he
    simp [he]
  have hn : ∀ parts ∈ sections.filter (!·.isEmpty), parts ≠ [] := by simp
  rw [hf, ← List.flatten_filter_not_isEmpty, ← List.flatMap_id]
  exact paragraphs_flatMap hn

theorem paragraphs_render (ds : List Declaration) :
    paragraphs (ds.map (·.render)) =
      paragraphs ((ds.flatMap (·.statements)).map (·.render)) := by
  rw [List.map_flatMap, ← paragraphs_flatMap fun d _ => by simp [d.statements_ne_nil]]
  exact congrArg paragraphs (List.map_congr_left fun d _ => d.render_eq_paragraphs)

theorem preamble_ne_empty (m : Module) : m.preamble ≠ "" := by
  intro h
  rw [preamble, String.append_eq_empty_iff, String.append_eq_empty_iff] at h
  exact absurd h.1.2 (by decide)

/-- The text of a module are its statements, with an empty line between any two. -/
theorem render_eq_paragraphs (m : Module) :
    m.render = paragraphs (m.preamble :: m.statements.map (·.render)) ++ "\n" := by
  let sections := [[m.preamble], m.builtins.map (·.render), m.contentTypes.map (·.render)]
  have hs : ∀ parts ∈ sections, ∀ part ∈ parts, part ≠ "" := by
    simp [sections, Declaration.render_ne_empty, preamble_ne_empty]
  have hr : m.render = paragraphs ((sections.map paragraphs).filter (!·.isEmpty)) ++ "\n" := by
    simp only [sections, List.map_cons, List.map_nil, paragraphs_singleton]
    rfl
  have hf : sections.flatten = m.preamble :: m.declarations.map (·.render) := by
    simp [sections, declarations]
  rw [hr, paragraphs_filter hs, hf]
  by_cases hd : m.declarations = []
  · rw [statements, hd]
    rfl
  · have hn : m.statements ≠ [] := by
      obtain ⟨d, rest, hd⟩ := List.exists_cons_of_ne_nil hd
      simp [statements, hd, d.statements_ne_nil]
    rw [← List.singleton_append, ← List.singleton_append (l := m.statements.map _),
      paragraphs_append (by simp) (by simpa using hd), paragraphs_append (by simp) (by simpa using hn),
      paragraphs_render]
    rfl

def words (line : String) : List String :=
  (Text.runs (· != ' ') line.toList).map String.ofList

def importedValues (m : Module) : List String :=
  m.imports.flatMap fun line =>
    match words line with
    | ["import", "\x7b", name, "\x7d", "from", _] => [name]
    | _ => []

def importedTypes (m : Module) : List String :=
  m.imports.flatMap fun line =>
    match words line with
    | ["import", "type", "\x7b", name, "\x7d", "from", _] => [name]
    | _ => []

/-- The values that the module binds, in the order of the text. -/
def values (m : Module) : List String := m.importedValues ++ m.statements.flatMap (·.values)

def types (m : Module) : List String := m.importedTypes ++ m.statements.flatMap (·.types)

end Module

end ContentSchema.Source

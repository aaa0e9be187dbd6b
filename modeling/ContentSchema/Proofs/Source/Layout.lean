import ContentSchema.Proofs.Source.Statements

/-! # The text of an entry's schema

The schema of a content type is written as an object that fixes the id of the entry and has a line
for each field. Where fields are declared again, a type and a schema that are built on this object
have a part for each of them.
-/

namespace ContentSchema.Source

/-- A field that is declared again: its part of the type, and its schema. -/
structure Relink where
  key : String
  member : String
  schema : String
  deriving DecidableEq

/-- What there is to write for the schema of a content type. -/
structure Layout where
  id : String
  constant : String
  type : String
  passthrough : Bool
  /-- The fields of the object that is declared first, with their schemas. -/
  fields : List (String × String)
  relinks : List Relink

namespace Layout

variable (t : Layout)

def line (key schema : String) : String :=
  "    " ++ Text.propertyName key ++ ": " ++ schema ++ ","

def ending : String := "\x7d)" ++ if t.passthrough then ".passthrough()" else ".strict()"

def fieldLines : String :=
  if t.fields = [] then ""
  else "\n" ++ String.intercalate "\n" (t.fields.map fun f => line f.1 f.2) ++ "\n  "

def object : String :=
  "z.object(\x7b\n" ++
  "  sys: z.object(\x7b\n" ++
  "    contentType: z.object(\x7b\n" ++
  "      sys: z.object(\x7b\n" ++
  "        id: z.literal(" ++ Json.quote t.id ++ "),\n" ++
  "      \x7d),\n" ++
  "    \x7d),\n" ++
  "  \x7d),\n" ++
  "  fields: z.object(\x7b" ++ t.fieldLines ++ t.ending ++ ",\n" ++
  t.ending

/-- The parts of the type stand on one line where this takes at most 80 bytes. -/
def members : String :=
  let line := "  fields: \x7b " ++ String.intercalate "; " (t.relinks.map (·.member)) ++ " \x7d;"
  if line.utf8ByteSize ≤ 80 then line
  else
    "  fields: \x7b\n" ++
      String.intercalate "\n" (t.relinks.map fun r => "    " ++ r.member ++ ";") ++ "\n  \x7d;"

def base : String := "_base" ++ t.type

def paragraphs : List String :=
  if t.relinks = [] then
    ["export const " ++ t.constant ++ " = " ++ t.object ++ ";",
      "export type " ++ t.type ++ " = z.infer<typeof " ++ t.constant ++ ">;"]
  else
    ["const " ++ t.base ++ " = " ++ t.object ++ ";",
      "export type " ++ t.type ++ " = z.infer<typeof " ++ t.base ++ "> & \x7b\n" ++
        t.members ++ "\n\x7d;",
      "export const " ++ t.constant ++ ": z.ZodType<" ++ t.type ++ "> = " ++ t.base ++
        ".extend(\x7b\n" ++
        "  fields: " ++ t.base ++ ".shape.fields.extend(\x7b\n" ++
        String.intercalate "\n" (t.relinks.map fun r => line r.key r.schema) ++
        "\n  \x7d),\n\x7d);"]

/-- The field is declared once, with this schema. -/
structure DeclaresOnce (key schema : String) : Prop where
  field : (key, schema) ∈ t.fields
  relinks : ∀ r ∈ t.relinks, r.key ≠ key

/-- The field is left open at first, and declared again just once. -/
structure Redeclares (r : Relink) : Prop where
  field : (r.key, "z.unknown()") ∈ t.fields
  relinks : t.relinks.filter (·.key == r.key) = [r]

end Layout

namespace Expr

theorem renderMembers_eq_map (level : Nat) (members : List (String × Expr)) :
    renderMembers level members = members.map fun m =>
      Text.indent level ++ Text.propertyName m.1 ++ ": " ++ m.2.render level ++ "," := by
  induction members with
  | nil => rfl
  | cons m rest ih => rw [renderMembers, ih, List.map_cons]

def ofId (id : String) : Expr :=
  .object [("contentType", .object [("sys", .object [("id", .primitive (.literal id))] .strip)]
    .strip)] .strip

def ofEntry (id : String) (members : List (String × Expr)) (policy : ObjectPolicy) : Expr :=
  .object [("sys", ofId id), ("fields", .object members policy)] policy

end Expr

namespace LinkField

def relink (l : LinkField) : Relink := ⟨l.key, l.typeMember, l.expr.render 2⟩

end LinkField

namespace Layout

variable {t : Layout} {members : List (String × Expr)} {policy : ObjectPolicy}

theorem render_fields (hf : t.fields = members.map fun m => (m.1, m.2.render 2))
    (hp : "\x7d)" ++ Expr.policyText policy = t.ending) :
    (Expr.object members policy).render 1 = "z.object(\x7b" ++ t.fieldLines ++ t.ending := by
  rw [Expr.render, Expr.renderMembers_eq_map, ← hp, fieldLines, hf]
  cases members with
  | nil => rfl
  | cons m rest =>
    have hl : (fun m : String × Expr => Text.indent (1 + 1) ++ Text.propertyName m.1 ++ ": " ++
        m.2.render (1 + 1) ++ ",") = fun m => line m.1 (m.2.render 2) := rfl
    have ho : "z.object(\x7b\n" = "z.object(\x7b" ++ "\n" := rfl
    have hc : "\n  " = "\n" ++ Text.indent 1 := rfl
    rw [hl, hc]
    simp only [ho, Expr.objectText, List.map_map, Function.comp_def, List.map_cons,
      List.isEmpty_cons, Bool.false_eq_true, if_false, reduceCtorEq, String.append_assoc]

theorem render_single (level : Nat) (key : String) (e : Expr) :
    (Expr.object [(key, e)] .strip).render level =
      "z.object(\x7b\n" ++ Text.indent (level + 1) ++ Text.propertyName key ++ ": " ++
        e.render (level + 1) ++ ",\n" ++ Text.indent level ++ "\x7d)" := by
  have hc : ",\n" = "," ++ "\n" := rfl
  simp only [Expr.render, Expr.renderMembers_eq_map, Expr.objectText, Expr.policyText, hc,
    List.map_cons, List.map_nil, List.isEmpty_cons, Bool.false_eq_true, if_false,
    String.intercalate_singleton, String.append_assoc, String.append_empty]

theorem render_ofId (id : String) :
    (Expr.ofId id).render 1 =
      "z.object(\x7b\n" ++ "    contentType: z.object(\x7b\n" ++ "      sys: z.object(\x7b\n" ++
        "        id: z.literal(" ++ Json.quote id ++ "),\n" ++
        "      \x7d),\n" ++ "    \x7d),\n" ++ "  \x7d)" := by
  have hc : "    contentType: z.object(\x7b\n" =
      Text.indent 2 ++ Text.propertyName "contentType" ++ ": " ++ "z.object(\x7b\n" := by decide
  have hs : "      sys: z.object(\x7b\n" =
      Text.indent 3 ++ Text.propertyName "sys" ++ ": " ++ "z.object(\x7b\n" := by decide
  have hi : "        id: z.literal(" =
      Text.indent 4 ++ Text.propertyName "id" ++ ": " ++ "z.literal(" := by decide
  have hl : "),\n" = ")" ++ ",\n" := rfl
  have h3 : "      \x7d),\n" = Text.indent 3 ++ "\x7d)" ++ ",\n" := rfl
  have h2 : "    \x7d),\n" = Text.indent 2 ++ "\x7d)" ++ ",\n" := rfl
  have h1 : "  \x7d)" = Text.indent 1 ++ "\x7d)" := rfl
  rw [Expr.ofId, render_single, render_single, render_single, Expr.render, Expr.primitiveText,
    hc, hs, hi, hl, h3, h2, h1]
  simp only [String.append_assoc]

theorem render_ofEntry (hf : t.fields = members.map fun m => (m.1, m.2.render 2))
    (hp : "\x7d)" ++ Expr.policyText policy = t.ending) :
    (Expr.ofEntry t.id members policy).render 0 = t.object := by
  have hs : "  sys: z.object(\x7b\n" =
      Text.indent 1 ++ Text.propertyName "sys" ++ ": " ++ "z.object(\x7b\n" := by decide
  have hk : "  fields: z.object(\x7b" =
      Text.indent 1 ++ Text.propertyName "fields" ++ ": " ++ "z.object(\x7b" := by decide
  have h1 : "  \x7d),\n" = "  \x7d)" ++ "," ++ "\n" := rfl
  have hc : ",\n" = "," ++ "\n" := rfl
  have h0 : Text.indent 0 = "" := rfl
  rw [Expr.ofEntry, Expr.render, Expr.renderMembers_eq_map]
  simp only [List.map_cons, List.map_nil, Nat.zero_add]
  rw [render_fields hf hp, render_ofId]
  -- the equations of definitions with long texts take long to make
  delta object
  rw [hs, hk, h1, hc, ← hp]
  simp only [Expr.objectText, List.isEmpty_cons, Bool.false_eq_true, if_false, h0,
    String.intercalate_cons_cons, String.intercalate_singleton, String.append_assoc,
    String.empty_append]

theorem render_schema {body : Expr} (hr : t.relinks = []) (hb : body.render 0 = t.object) :
    (Declaration.schema t.constant t.type body none).statements.map (·.render) = t.paragraphs := by
  have ho : " = z.infer<typeof " = " = " ++ "z.infer<typeof " := rfl
  have hc : ">;" = ">" ++ ";" := rfl
  delta paragraphs
  rw [if_pos hr]
  simp only [Declaration.statements, List.map_cons, List.map_nil, Statement.render]
  delta Statement.schemaText Statement.inferredText Declaration.inferred
  simp only [hb, ho, hc, Option.map_none, Option.getD_none, String.append_empty,
    String.append_assoc]

theorem render_linked {body : Expr} {links : List LinkField}
    (hr : t.relinks = links.map (·.relink)) (hn : links ≠ []) (hb : body.render 0 = t.object) :
    (Declaration.linked t.base t.constant t.type body links).statements.map (·.render) =
      t.paragraphs := by
  have hm : Declaration.fieldsType (links.map (·.typeMember)) = t.members := by
    simp only [members, hr, List.map_map, Function.comp_def]
    rw [Declaration.fieldsType, List.map_map]
    rfl
  have hl : links.map (·.schemaMember) = t.relinks.map fun r => line r.key r.schema := by
    rw [hr, List.map_map]
    rfl
  have ho : " = z.infer<typeof " = " = " ++ "z.infer<typeof " := rfl
  have hc : "> & \x7b\n" = ">" ++ " & \x7b\n" := rfl
  have hne : t.relinks ≠ [] := by simpa [hr] using hn
  delta paragraphs
  rw [if_neg hne]
  simp only [Declaration.statements, List.map_cons, List.map_nil, Statement.render]
  delta Statement.constText Statement.joinedText Statement.extendedText Declaration.inferred
  simp only [hb, hm, hl, ho, hc, String.append_assoc]

end Layout

end ContentSchema.Source

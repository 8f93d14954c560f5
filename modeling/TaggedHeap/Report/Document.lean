import TaggedHeap.Json
import TaggedHeap.Report.Basic

/-! The documents that show reports. The fields come in a fixed order; one without a value is left
out. -/
namespace TaggedHeap

namespace Json

def tag (t : Tag) : Json := .number t.toNat

def word (w : Word) : Json := .number w.toNat

def category (c : Category) : Json := .text c.name

def optional (key : String) : Option Json → List (String × Json)
  | none => []
  | some value => [(key, value)]

def unlessEmpty (key : String) : List Json → List (String × Json)
  | [] => []
  | items => [(key, .list items)]

end Json

def Boundaries.toJson (b : Boundaries) : Json :=
  .object [("values", .tag b.values), ("compiled_values", .tag b.compiledValues),
    ("last_normal", .tag b.lastNormal), ("last", .tag b.last)]

def KindRange.toJson (r : KindRange) : Json :=
  .object [("start", .tag r.start), ("end", .tag r.stop)]

def Layout.toJson : Layout → Json
  | .atomic words => .object [("layout", .text "atomic"), ("words", .word words)]
  | .fixed words pointers =>
    .object [("layout", .text "fixed"), ("words", .word words),
      ("pointers", .list (pointers.map .word))]
  | .array lead lengthWord traced =>
    .object [("layout", .text "array"), ("prefix", .word lead), ("len_word", .word lengthWord),
      ("traced", .flag traced)]

def Gap.toJson (g : Gap) : Json :=
  .object [("tag", .tag g.tag), ("name", .text g.name), ("category", .category g.category),
    ("missing", .list (g.missing.map fun op => .text op.name))]

def KindInfo.toJson (k : KindInfo) : Json :=
  .object [("tag", .tag k.tag), ("name", .text k.name), ("category", .category k.category)]

def ReservedRow.toJson (r : ReservedRow) : Json :=
  .object [("tag", .tag r.tag), ("boundary", .text r.marker.name)]

def NamedRange.toJson (r : NamedRange) : Json :=
  .object [("name", .text r.name), ("range", r.range.toJson), ("kinds", .number r.kinds)]

def schemaField (report : String) : String × Json :=
  ("schema_version", .text ("heaptag." ++ report ++ ".report@0.1.0"))

def CatalogReport.toJson (r : CatalogReport) : Json :=
  .object <|
    [schemaField "catalog", ("include_internal_tags", .flag r.internalTier),
      ("boundaries", r.boundaries.toJson), ("kinds", .list (r.kinds.map KindInfo.toJson)),
      ("reserved", .list (r.reserved.map ReservedRow.toJson))] ++
    Json.unlessEmpty "ranges" (r.ranges.map NamedRange.toJson)

def ClassifyReport.toJson (r : ClassifyReport) : Json :=
  .object <|
    [schemaField "classify", ("ok", .flag r.ok), ("tag", .tag r.tag)] ++
    Json.optional "name" (r.name.map .text) ++ Json.optional "category" (r.category.map .category) ++
    Json.optional "error" (r.error.map .text)

def LookupReport.toJson (r : LookupReport) : Json :=
  .object <|
    [schemaField "lookup", ("ok", .flag r.ok), ("tag", .tag r.tag)] ++
    Json.optional "name" (r.name.map .text) ++
    Json.unlessEmpty "ops" (r.operations.map fun op => .text op.name) ++
    Json.optional "scan" (r.layout.map Layout.toJson) ++ Json.optional "error" (r.error.map .text)

def CheckReport.toJson (r : CheckReport) : Json :=
  .object <|
    [schemaField "check", ("ok", .flag r.ok), ("include_internal_tags", .flag r.internalTier),
      ("kinds", .number r.kinds), ("boundaries", r.boundaries.toJson)] ++
    Json.unlessEmpty "gaps" (r.gaps.map Gap.toJson)

end TaggedHeap

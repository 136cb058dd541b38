import ReplicaLag.Json.Shape
import ReplicaLag.Version

/-!
Versions and records as JSON.
-/

namespace ReplicaLag

namespace Node

def toJson (n : Node) : Json :=
  .object [("name", .string n.name), ("tags", .ofNames n.tags), ("is_primary", .bool n.isPrimary)]

def ofJson? (j : Json) : Option Node := do
  let ms ← j.members? .exact ["name", "tags", "is_primary"]
  let name ← Json.required ms "name" Json.toString?
  let tags ← Json.required ms "tags" Json.toNames?
  let isPrimary ← Json.required ms "is_primary" Json.toBool?
  return { name, tags, isPrimary }

end Node

namespace Columns

def toJson (c : Columns) : Json := .ofMap id c

def ofJson? (j : Json) : Option Columns := j.toMap? some

end Columns

namespace Visibility

def toJson (v : Visibility) : Json := .object [("delays", .ofMap Json.nat v)]

def ofJson? (j : Json) : Option Visibility := do
  let ms ← j.members? .exact ["delays"]
  Json.required ms "delays" (Json.toMap? Json.toNat64?)

end Visibility

namespace Version

def toJson (v : Version) : Json :=
  .object [("values", v.values.toJson), ("written_at", .nat v.writtenAt),
    ("written_by", .ofOption Node.toJson v.writtenBy), ("visibility", v.visibility.toJson),
    ("is_null", .bool v.isNull)]

/-- A version; only its writer may be missing. -/
def ofJson? (j : Json) : Option Version := do
  let ms ← j.members? .exact ["values", "written_at", "written_by", "visibility", "is_null"]
  let values ← Json.required ms "values" Columns.ofJson?
  let writtenAt ← Json.required ms "written_at" Json.toNat64?
  let writtenBy ← Json.defaulted ms "written_by" none (Json.toOption? Node.ofJson?)
  let visibility ← Json.required ms "visibility" Visibility.ofJson?
  let isNull ← Json.required ms "is_null" Json.toBool?
  return { values, writtenAt, writtenBy, visibility, isNull }

end Version

namespace Record

def toJson (r : Record) : Json :=
  .object [("key", .string r.key), ("version", r.version.toJson)]

def ofJson? (j : Json) : Option Record := do
  let ms ← j.members? .exact ["key", "version"]
  let key ← Json.required ms "key" Json.toString?
  let version ← Json.required ms "version" Version.ofJson?
  return { key, version }

end Record

end ReplicaLag

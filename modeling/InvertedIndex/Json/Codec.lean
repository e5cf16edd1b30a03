import InvertedIndex.Json.Reader
import InvertedIndex.Json.Writer
import InvertedIndex.Row
import InvertedIndex.Settings

set_option autoImplicit false
set_option relaxedAutoImplicit false

namespace InvertedIndex

namespace Row

def fieldNames : List String :=
  ["document_name", "rank"]

def fieldValues (row : Row) : List Json :=
  [.ofText row.name, .ofNat row.rank.toNat]

def toJson (row : Row) : Json :=
  .object ((fieldNames.map Json.pointsOf).zip row.fieldValues)

def ofJson? (value : Json) : Option Row := do
  match ← value.fields? fieldNames with
  | [name, rank] => pure ⟨← name.text?, ← rank.uint64?⟩
  | _ => none

def toJsonText (row : Row) : String :=
  row.toJson.render

def ofJsonText? (text : String) : Option Row := do
  ofJson? (← Json.parse? text)

end Row

namespace Settings

def fieldNames : List String :=
  ["index_paths", "validate", "use_mmap"]

def fieldValues (settings : Settings) : List Json :=
  [.array (settings.paths.map Json.ofText), .bool settings.strict, .bool settings.mapped]

def toJson (settings : Settings) : Json :=
  .object ((fieldNames.map Json.pointsOf).zip settings.fieldValues)

def ofJson? (value : Json) : Option Settings := do
  match ← value.fields? fieldNames with
  | [paths, strict, mapped] =>
    pure ⟨← (← paths.items?).mapM Json.text?, ← strict.bool?, ← mapped.bool?⟩
  | _ => none

def toJsonText (settings : Settings) : String :=
  settings.toJson.render

def ofJsonText? (text : String) : Option Settings := do
  ofJson? (← Json.parse? text)

end Settings

end InvertedIndex

import Mathlib
import InvertedIndex.Json.Codec
import InvertedIndex.Proofs.Outcome
import InvertedIndex.Proofs.WrittenJson

/-!
The forms that rows and settings have as JSON, and that each is read back.
-/

set_option autoImplicit false
set_option relaxedAutoImplicit false

namespace InvertedIndex

namespace Json

def ofFields (fields : List (String × Json)) : Json :=
  .object (fields.map fun field => (pointsOf field.1, field.2))

theorem textual_ofFields {fields : List (String × Json)} (each : ∀ field ∈ fields, Textual field.2) :
    Textual (ofFields fields) := by
  refine .object ?named ?each
  case named =>
    intro member mem
    obtain ⟨field, -, rfl⟩ := List.mem_map.mp mem
    exact ⟨field.1, rfl⟩
  case each =>
    intro member mem
    obtain ⟨field, among, rfl⟩ := List.mem_map.mp mem
    exact each field among

theorem text?_ofText (text : String) : (ofText text).text? = some text :=
  textOf?_pointsOf text

theorem mapM_text?_map_ofText (texts : List String) : (texts.map ofText).mapM text? = some texts := by
  rw [Outcome.mapM_eq_some, List.forall₂_map_left_iff, List.forall₂_same]
  exact fun text _ => text?_ofText text

theorem uint64?_ofNat (word : UInt64) : (ofNat word.toNat).uint64? = some word := by
  rw [uint64?, nat?_ofNat]
  exact (if_pos word.toNat_lt).trans (congrArg some word.ofNat_toNat)

section Fields

variable {fields : List (String × Json)} {names : List String} {values : List Json}

theorem only?_of_mem {name : String} {value : Json} (distinct : (fields.map Prod.fst).Nodup)
    (mem : (name, value) ∈ fields) : only? fields name = some value := by
  have sole : fields.filter (fun field => field.1 = name) = [(name, value)] := by
    induction fields with
    | nil => cases mem
    | cons field fields ih =>
      obtain ⟨fresh, distinct⟩ := List.nodup_cons.mp distinct
      rcases List.mem_cons.mp mem with rfl | mem
      · have others : fields.filter (fun field => field.1 = name) = [] := by
          rw [List.filter_eq_nil_iff]
          intro other among same
          exact fresh (List.mem_map.mpr ⟨other, among, of_decide_eq_true same⟩)
        rw [List.filter_cons_of_pos (by simp), others]
      · have other : field.1 ≠ name := by
          rintro rfl
          exact fresh (List.mem_map.mpr ⟨_, mem, rfl⟩)
        rw [List.filter_cons_of_neg (by simp [other]), ih distinct mem]
  rw [only?, sole]

theorem fields?_ofFields (distinct : names.Nodup) (paired : names.length = values.length)
    (order : fields.Perm (names.zip values)) : (ofFields fields).fields? names = some values := by
  have keys : (fields.map Prod.fst).Nodup := by
    rwa [(order.map Prod.fst).nodup_iff, List.map_fst_zip paired.le]
  have named : (fields.map fun field => (pointsOf field.1, field.2)).mapM
      (fun member => (textOf? member.1).map fun name => (name, member.2)) = some fields := by
    rw [Outcome.mapM_eq_some, List.forall₂_map_left_iff, List.forall₂_same]
    intro field _
    simp only [textOf?_pointsOf, Option.map_some]
  have found : names.mapM (only? fields) = some values := by
    rw [Outcome.mapM_eq_some, List.forall₂_iff_zip]
    exact ⟨paired, fun mem => only?_of_mem keys (order.mem_iff.mpr mem)⟩
  rw [ofFields, fields?, named]
  exact found

/-- The forms of some fields: the object with them in any order, and the array of their values. -/
inductive FormOf (names : List String) (values : List Json) : Json → Prop
  | object {fields : List (String × Json)} (order : fields.Perm (names.zip values)) :
      FormOf names values (ofFields fields)
  | array : FormOf names values (array values)

namespace FormOf

variable {form : Json}

theorem of_zip (names : List String) (values : List Json) :
    FormOf names values (.object ((names.map pointsOf).zip values)) := by
  rw [List.zip_map_left]
  exact .object (.refl _)

theorem textual (each : ∀ value ∈ values, Textual value) (is : FormOf names values form) : Textual form := by
  cases is with
  | object order =>
    exact textual_ofFields fun field mem => each _ (List.of_mem_zip (order.mem_iff.mp mem)).2
  | array => exact .array each

theorem fields?_eq (distinct : names.Nodup) (paired : names.length = values.length)
    (is : FormOf names values form) : form.fields? names = some values := by
  cases is with
  | object order => exact fields?_ofFields distinct paired order
  | array => exact if_pos paired.symm

theorem read_render {α : Type} {ofJson? : Json → Option α} {a : α} (is : FormOf names values form)
    (distinct : names.Nodup) (paired : names.length = values.length)
    (each : ∀ value ∈ values, Textual value)
    (made : ∀ value : Json, value.fields? names = some values → ofJson? value = some a) :
    (parse? form.render >>= ofJson?) = some a := by
  rw [parse?_render (is.textual each)]
  exact made form (is.fields?_eq distinct paired)

end FormOf

end Fields

end Json

namespace Row

theorem textual_fieldValues (row : Row) : ∀ value ∈ row.fieldValues, Json.Textual value := by
  simp [fieldValues, Json.Textual.ofText, Json.Textual.ofNat]

theorem ofJson?_of_fields? {row : Row} {value : Json}
    (found : value.fields? fieldNames = some row.fieldValues) : ofJson? value = some row := by
  simp [ofJson?, found, fieldValues, Json.text?_ofText, Json.uint64?_ofNat]

theorem ofJsonText?_render {row : Row} {form : Json} (is : Json.FormOf fieldNames row.fieldValues form) :
    ofJsonText? form.render = some row :=
  is.read_render (by decide) rfl row.textual_fieldValues fun _ => ofJson?_of_fields?

end Row

namespace Settings

theorem textual_fieldValues (settings : Settings) :
    ∀ value ∈ settings.fieldValues, Json.Textual value := by
  have paths : Json.Textual (.array (settings.paths.map Json.ofText)) := by
    refine .array fun item mem => ?_
    obtain ⟨path, -, rfl⟩ := List.mem_map.mp mem
    exact .ofText path
  simp [fieldValues, paths, Json.Textual.bool]

theorem ofJson?_of_fields? {settings : Settings} {value : Json}
    (found : value.fields? fieldNames = some settings.fieldValues) : ofJson? value = some settings := by
  simp only [ofJson?, found, fieldValues, Json.items?, Json.bool?, Json.mapM_text?_map_ofText,
    Option.bind_eq_bind, Option.bind_some, Option.pure_def]

theorem ofJsonText?_render {settings : Settings} {form : Json}
    (is : Json.FormOf fieldNames settings.fieldValues form) : ofJsonText? form.render = some settings :=
  is.read_render (by decide) rfl settings.textual_fieldValues fun _ => ofJson?_of_fields?

end Settings

namespace Json

/-- A row and settings are read back from their text, from the text of an object with the same fields in any
order, and from the text of an array with the same values in their order. -/
theorem forms_are_read_back :
    (∀ row : Row,
      Row.ofJsonText? row.toJsonText = some row ∧
      (∀ fields : List (String × Json), fields.Perm (Row.fieldNames.zip row.fieldValues) →
        Row.ofJsonText? (ofFields fields).render = some row) ∧
      Row.ofJsonText? (array row.fieldValues).render = some row) ∧
    (∀ settings : Settings,
      Settings.ofJsonText? settings.toJsonText = some settings ∧
      (∀ fields : List (String × Json), fields.Perm (Settings.fieldNames.zip settings.fieldValues) →
        Settings.ofJsonText? (ofFields fields).render = some settings) ∧
      Settings.ofJsonText? (array settings.fieldValues).render = some settings) := by
  refine ⟨fun row => ⟨?_, fun fields order => ?_, ?_⟩, fun settings => ⟨?_, fun fields order => ?_, ?_⟩⟩
  · exact Row.ofJsonText?_render (.of_zip ..)
  · exact Row.ofJsonText?_render (.object order)
  · exact Row.ofJsonText?_render .array
  · exact Settings.ofJsonText?_render (.of_zip ..)
  · exact Settings.ofJsonText?_render (.object order)
  · exact Settings.ofJsonText?_render .array

theorem forms_are_read_back_escaped :
    let row : Row := ⟨"\"\\\x01😀", 18446744073709551615⟩
    let settings : Settings := ⟨["a b", "ü"], true, false⟩
    let rowFields := [("rank", ofNat row.rank.toNat), ("document_name", ofText row.name)]
    let settingsFields :=
      [("validate", bool true), ("index_paths", array (settings.paths.map ofText)), ("use_mmap", bool false)]
    rowFields.Perm (Row.fieldNames.zip row.fieldValues) ∧
      settingsFields.Perm (Settings.fieldNames.zip settings.fieldValues) ∧
      row.toJsonText =
        "\x7b\"document_name\":\"\\\"\\\\\\u0001😀\",\"rank\":18446744073709551615\x7d" ∧
      (ofFields rowFields).render =
        "\x7b\"rank\":18446744073709551615,\"document_name\":\"\\\"\\\\\\u0001😀\"\x7d" ∧
      (ofFields settingsFields).render =
        "\x7b\"validate\":true,\"index_paths\":[\"a b\",\"ü\"],\"use_mmap\":false\x7d" ∧
      Row.ofJsonText? row.toJsonText = some row ∧
      Row.ofJsonText? (ofFields rowFields).render = some row ∧
      Settings.ofJsonText? (ofFields settingsFields).render = some settings :=
  have rowOrder := .swap ..
  have settingsOrder := .swap ..
  ⟨rowOrder, settingsOrder, by decide, by decide, by decide, (forms_are_read_back.1 _).1,
    (forms_are_read_back.1 _).2.1 _ rowOrder, (forms_are_read_back.2 _).2.1 _ settingsOrder⟩

end Json

end InvertedIndex

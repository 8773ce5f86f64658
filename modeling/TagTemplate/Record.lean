import Std.Data.TreeMap
import TagTemplate.Value

/-!
# Records

A template is evaluated against a record. All it needs of a record is what is in a field of a given
name, if anything; a `FieldMap` is a record held as a finite map.
-/

namespace TagTemplate

/-- What a record holds under each name. -/
abbrev Record :=
  String → Option Value

/-- A record of finitely many fields. -/
structure FieldMap where
  fields : Std.TreeMap String Value := {}

namespace FieldMap

/-- The record without fields. -/
def empty : FieldMap :=
  {}

/-- The field map as a record. -/
def get? (m : FieldMap) : Record :=
  fun name => m.fields[name]?

/-- Puts a value into a field, in place of what it held. -/
def insert (m : FieldMap) (name : String) (value : Value) : FieldMap :=
  ⟨m.fields.insert name value⟩

/-- Removes a field. -/
def erase (m : FieldMap) (name : String) : FieldMap :=
  ⟨m.fields.erase name⟩

/-- The map without fields has no values. -/
@[simp] theorem get?_empty (name : String) : empty.get? name = none := by
  simp [empty, get?]

/-- A value that is set is found under its name, and every other name is as before. -/
theorem get?_insert (m : FieldMap) (name : String) (value : Value) (other : String) :
    (m.insert name value).get? other = if name = other then some value else m.get? other := by
  simp [insert, get?, Std.TreeMap.getElem?_insert]

/-- A field that is removed is found no more, and every other name is as before. -/
theorem get?_erase (m : FieldMap) (name other : String) :
    (m.erase name).get? other = if name = other then none else m.get? other := by
  simp [erase, get?, Std.TreeMap.getElem?_erase]

/-- The record of a list of fields, of which a later one replaces an earlier one. -/
def ofList (fields : List (String × Value)) : FieldMap :=
  fields.foldl (fun m field => m.insert field.1 field.2) empty

/-- The number of fields. -/
def size (m : FieldMap) : Nat :=
  m.fields.size

/-- Has the record no fields? -/
def isEmpty (m : FieldMap) : Bool :=
  m.fields.isEmpty

/-- Do the two records have the same fields with equal values? -/
def same (m₁ m₂ : FieldMap) : Bool :=
  m₁.size == m₂.size &&
    m₁.fields.toList.all fun field =>
      match m₂.get? field.1 with
      | some value => field.2.same value
      | none => false

end FieldMap

end TagTemplate

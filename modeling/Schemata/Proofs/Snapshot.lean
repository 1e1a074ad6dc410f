import Mathlib.Data.List.Basic
import Schemata.Proofs.Json
import Schemata.Snapshot

/-!
# Snapshots lose nothing

Different parts of a catalog are different as JSON values.  Members stand in a fixed order under
fixed names, a value that may be missing is not null when it is there, and a map lists its names
with its values.

Nothing is assumed of the catalog.  A map is listed in the order of its names, which is part of the
map, so that equal lists come from equal maps; and a record is printed with all its members, so that
it is known when each of them is.

* `NameMap.toJson_injective`, `Table.toJson_injective`, `Schema.toJson_injective` and the others:
  one lemma for each part;
* `Catalog.toJson_injective`: catalogs as values;
* `Catalog.snapshot_eq_iff`: catalogs as texts.
-/

namespace Schemata

/-! ## Optional values, lists and maps -/

namespace Json

variable {α : Type} {toJson : α → Json}

theorem ofOption_injective (hnull : ∀ value, toJson value ≠ null)
    (hinjective : Function.Injective toJson) : Function.Injective (ofOption toJson) := by
  intro first second hsame
  cases first with
  | none =>
      cases second with
      | none => rfl
      | some value => exact absurd hsame.symm (hnull value)
  | some value =>
      cases second with
      | none => exact absurd hsame (hnull value)
      | some other => exact congrArg some (hinjective hsame)

theorem ofList_injective (hinjective : Function.Injective toJson) :
    Function.Injective (ofList toJson) := by
  intro first second hsame
  exact List.map_injective_iff.mpr hinjective (array.inj hsame)

theorem ofString?_injective : Function.Injective ofString? :=
  ofOption_injective (fun _ => Json.noConfusion) fun _ _ => string.inj

theorem ofStrings_injective : Function.Injective ofStrings :=
  ofList_injective fun _ _ => string.inj

end Json

theorem NameMap.toJson_injective {α : Type} {valueToJson : α → Json}
    (hinjective : Function.Injective valueToJson) :
    Function.Injective (NameMap.toJson valueToJson) := by
  have hentry : Function.Injective fun entry : String × α => (entry.1, valueToJson entry.2) := by
    rintro ⟨name, value⟩ ⟨otherName, otherValue⟩ hsame
    obtain ⟨hname, hvalue⟩ := Prod.mk.inj hsame
    exact Prod.ext hname (hinjective hvalue)
  rintro ⟨entries, hordered⟩ ⟨others, hothers⟩ hsame
  obtain rfl := List.map_injective_iff.mpr hentry (Json.object.inj hsame)
  rfl

/-! ## Tables -/

theorem DataType.toJson_injective : Function.Injective DataType.toJson := by
  have hsize : Function.Injective
      (Json.ofOption fun (value : UInt32) => .number value.toNat) :=
    Json.ofOption_injective (fun _ => Json.noConfusion) fun _ _ hsame =>
      UInt32.toNat.inj (Json.number.inj hsame)
  rintro ⟨⟩ ⟨⟩ hsame
  simpa [toJson, hsize.eq_iff] using hsame

theorem Column.toJson_injective : Function.Injective Column.toJson := by
  rintro ⟨⟩ ⟨⟩ hsame
  simpa [toJson, DataType.toJson_injective.eq_iff, Json.ofString?_injective.eq_iff] using hsame

theorem ReferentialAction.name_injective : Function.Injective ReferentialAction.name := by
  intro first second hsame
  cases first <;> cases second <;> first | rfl | exact absurd hsame (by decide)

theorem ForeignKey.toJson_injective : Function.Injective ForeignKey.toJson := by
  rintro ⟨⟩ ⟨⟩ hsame
  simpa [toJson, ReferentialAction.name_injective.eq_iff, Json.ofString?_injective.eq_iff]
    using hsame

theorem Index.toJson_injective : Function.Injective Index.toJson := by
  rintro ⟨⟩ ⟨⟩ hsame
  simpa [toJson, Json.ofStrings_injective.eq_iff] using hsame

theorem Table.toJson_injective : Function.Injective Table.toJson := by
  rintro ⟨⟩ ⟨⟩ hsame
  simpa [toJson, (Json.ofList_injective Column.toJson_injective).eq_iff,
    (Json.ofList_injective Index.toJson_injective).eq_iff,
    (Json.ofList_injective ForeignKey.toJson_injective).eq_iff] using hsame

/-! ## Catalogs -/

theorem EnumType.toJson_injective : Function.Injective EnumType.toJson := by
  rintro ⟨⟩ ⟨⟩ hsame
  simpa [toJson, Json.ofStrings_injective.eq_iff] using hsame

theorem Schema.toJson_injective : Function.Injective Schema.toJson := by
  rintro ⟨⟩ ⟨⟩ hsame
  simpa [toJson, (NameMap.toJson_injective Table.toJson_injective).eq_iff,
    (NameMap.toJson_injective EnumType.toJson_injective).eq_iff] using hsame

theorem Catalog.toJson_injective : Function.Injective Catalog.toJson := by
  rintro ⟨⟩ ⟨⟩ hsame
  simpa [toJson, schemasJson, (NameMap.toJson_injective Schema.toJson_injective).eq_iff]
    using hsame

/-- Catalogs with the same snapshot are equal. -/
theorem Catalog.snapshot_eq_iff (first second : Catalog) :
    first.snapshot = second.snapshot ↔ first = second := by
  rw [snapshot, snapshot, Json.pretty_inj, toJson_injective.eq_iff]

end Schemata

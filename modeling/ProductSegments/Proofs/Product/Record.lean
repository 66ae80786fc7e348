import ProductSegments.Product.Document
import ProductSegments.Proofs.Json.Members

/-!
# Product records by their members

The members of a product record fill fields of a draft, one each.  So the record of a product holds
what the texts of its members say, wherever it stands in a document.

## Main definitions

* `Json.HoldsTexts` — the text is a list of strings.
* `Product.fields` — the fields of a draft, with how they are read.

## Main results

* `Product.document_textReader_iff`, `Product.document_texts_iff` — what texts, and lists of them,
  look like.
* `Product.areFields` — the members of a product record fill fields.
* `Product.local_reader` — the reader of product records is local.
-/

namespace ProductSegments

open Json

/-- The text is a list of strings with the given characters. -/
def Json.HoldsTexts (texts : List String) (t : List UInt8) : Prop :=
  ∃ parts, IsArray parts t ∧
    List.Forall₂ (fun part (text : String) => Padded (Quotes text.toList) part) parts texts

namespace Product

/-! ### Texts -/

theorem document_textReader_iff {text : String} {t : List UInt8} :
    Json.document textReader t = .ok text ↔ Padded (Quotes text.toList) t := by
  rw [textReader, document_refine_iff]
  simp only [document_string_iff, Function.comp_apply, Option.some.injEq]
  constructor
  · rintro ⟨cs, quotes, rfl⟩
    rwa [String.toList_ofList]
  · exact fun quotes => ⟨text.toList, quotes, String.ofList_toList⟩

theorem local_textReader : Local (Reads textReader) := local_refine local_string _

theorem document_texts_iff {texts : List String} {t : List UInt8} :
    Json.document (Json.array textReader) t = .ok texts ↔ HoldsTexts texts t := by
  simp only [document_array_iff local_textReader, document_textReader_iff, HoldsTexts]

/-! ### Records -/

/-- The fields of a draft. -/
def fields : List (Json.Field Draft) := [
  ⟨"id", Json.integer, (·.id), fun v d => { d with id := v }, false⟩,
  ⟨"title", textReader, (·.title), fun v d => { d with title := v }, false⟩,
  ⟨"price", Json.number, (·.price), fun v d => { d with price := v }, false⟩,
  ⟨"stock_status", textReader, (·.stockStatus), fun v d => { d with stockStatus := v }, false⟩,
  ⟨"stock_quantity", Json.optional Json.integer, (·.stockQuantity),
    fun v d => { d with stockQuantity := some v }, false⟩,
  ⟨"category", textReader, (·.category), fun v d => { d with category := v }, false⟩,
  ⟨"tags", Json.array textReader, (·.tags), fun v d => { d with tags := v }, true⟩,
  ⟨"on_sale", Json.flag, (·.onSale), fun v d => { d with onSale := v }, false⟩,
  ⟨"created_at", Json.optional dateReader, (·.createdAt),
    fun v d => { d with createdAt := some v }, true⟩,
  ⟨"updated_at", Json.optional dateReader, (·.updatedAt),
    fun v d => { d with updatedAt := some v }, true⟩]

/-- The members of a product record fill the fields of its draft, one each. -/
theorem areFields : AreFields fields members Draft.empty where
  members_eq := rfl
  isLocal := by
    have date : Local (Reads dateReader) := local_refine local_string _
    simp only [fields, List.forall_mem_cons, List.not_mem_nil, false_imp_iff, implies_true, and_true]
    exact ⟨local_integer, local_textReader, local_number, local_textReader,
      local_optional local_integer, local_textReader, local_array local_textReader,
      local_flag, local_optional date, local_optional date⟩
  unset := by simp [fields, Draft.empty]
  get_put := by simp [fields]
  apart := by simp [fields, Json.Field.Apart]

theorem local_reader : Local (Reads reader) := local_record areFields.lawful.isLocal

end Product

end ProductSegments

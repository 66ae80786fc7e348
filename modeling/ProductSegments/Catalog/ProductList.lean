import ProductSegments.Product.Document

/-!
# Product lists

The service lists its catalog in the form in which a product service lists its own, so one service
can be the supplier of another.

## Main definitions

* `Catalog.ProductList` — the products, with their count and a mark of success.
* `Catalog.ProductList.chars`, `Catalog.ProductList.reader` — its written form.
-/

namespace ProductSegments.Catalog

/-- A list of products as it travels. -/
structure ProductList where
  success : Bool
  products : List Product
  count : Nat
  deriving DecidableEq

namespace ProductList

/-- The list of some products. -/
def of (products : List Product) : ProductList := ⟨true, products, products.length⟩

/-- The written form of a list. -/
def chars (l : ProductList) : List Char :=
  Json.Writer.object [
    ("success", Json.Writer.flag l.success),
    ("data", Json.Writer.array (l.products.map Product.chars)),
    ("count", Json.Writer.integer l.count)]

/-- The members of a list that have been read. -/
structure Draft where
  success : Option Bool
  products : Option (List Product)
  count : Option Nat

/-- The members of a list.  Products and count may be missing. -/
def members : List (Json.Member Draft) := [
  .of "success" Json.flag (·.success) (fun v d => { d with success := v }) false,
  .of "data" (Json.array Product.reader) (·.products) (fun v d => { d with products := v }) true,
  .of "count" Json.natural (·.count) (fun v d => { d with count := v }) true]

/-- A list in its written form. -/
def reader : Json.Reader ProductList :=
  Json.record members ⟨none, none, none⟩ fun d => do
    return ⟨← d.success, d.products.getD [], d.count.getD 0⟩

end ProductList

end ProductSegments.Catalog

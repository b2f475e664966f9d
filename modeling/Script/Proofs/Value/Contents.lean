import Script.Value.Operation

/-!
# What operators read of a store

Texts, comparisons and operators depend on the arrays and objects of a store and on the texts of its
functions, and on nothing else of it: neither on scopes nor on what procedures do.
-/

namespace Script.Store

/-- Two stores have the same arrays and objects, and functions with the same texts. -/
structure SameContents (store other : Store) : Prop where
  arrays : other.arrays = store.arrays
  objects : other.objects = store.objects
  texts : ∀ id, other.functionText id = store.functionText id

namespace SameContents

variable {store other : Store}

theorem elements (same : store.SameContents other) (id : ArrayId) :
    other.elements id = store.elements id := by
  unfold Store.elements
  rw [same.arrays]

theorem properties (same : store.SameContents other) (id : ObjectId) :
    other.properties id = store.properties id := by
  unfold Store.properties
  rw [same.objects]

/-- What is shown of a value other than an array is its own text, or that of a function. -/
theorem plainText (same : store.SameContents other) (value : Value) :
    other.plainText value = store.plainText value := by
  cases value with
  | function id => exact same.texts id
  | boolean b => cases b <;> rfl
  | _ => rfl

/-- What is shown of a value reads arrays only, at every depth. -/
theorem displayWithin (same : store.SameContents other) :
    ∀ {depth value}, other.displayWithin depth value = store.displayWithin depth value := by
  intro depth
  induction depth with
  | zero => exact rfl
  | succ depth ih =>
    intro value
    cases value with
    | array id => simp only [Store.displayWithin, same.elements, ih]
    | _ => simp only [Store.displayWithin, same.plainText]

/-- The depth to which a value is followed is the number of arrays, which is the same. -/
theorem display (same : store.SameContents other) (value : Value) :
    other.display value = store.display value := by
  unfold Store.display
  rw [same.arrays, same.displayWithin]

/-- Equality follows elements and properties, to every depth and on every path of pairs. -/
theorem equalWithin (same : store.SameContents other) :
    ∀ {depth path left right}, other.equalWithin depth path left right =
      store.equalWithin depth path left right := by
  intro depth
  induction depth with
  | zero => exact rfl
  | succ depth ih =>
    intro path left right
    unfold Store.equalWithin
    simp only [same.elements, same.properties, ih]

theorem equal (same : store.SameContents other) (left right : Value) :
    other.equal left right = store.equal left right := by
  unfold Store.equal Store.pairCount
  rw [same.arrays, same.objects, same.equalWithin]

/-- An operator has the same result, or the same fault, in both stores. -/
theorem binary (same : store.SameContents other) (operator : BinaryOp) (left right : Value) :
    other.binary operator left right = store.binary operator left right := by
  unfold Store.binary Store.sum
  simp only [same.display, same.equal]

end SameContents

end Script.Store

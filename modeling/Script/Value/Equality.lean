import Script.Value

/-!
# Equality of values

Values are equal if they have the same kind and contents. Functions are equal to themselves only.
Two arrays or two objects that are already being compared further up count as equal, so cycles
are no obstacle: `path` has the pairs being compared, which are pairwise different, so the number
of pairs bounds the depth and there always is an answer.
-/

namespace Script.Store

/-- Whether two tables have the same keys. -/
def sameKeys (xs ys : Table Value) : Bool :=
  decide (xs.size = ys.size) && xs.keys.all ys.contains

/-- Whether two values are equal, given the pairs that are being compared around them. There is
no answer if comparisons would nest `depth` deep. -/
def equalWithin (store : Store) :
    (depth : Nat) → (path : List (Value × Value)) → Value → Value → Option Bool
  | 0, _, _, _ => none
  | depth + 1, path, left, right =>
    match left, right with
    | .number x, .number y => some (x.same y)
    | .string x, .string y => some (decide (x = y))
    | .boolean x, .boolean y => some (decide (x = y))
    | .null, .null => some true
    | .function i, .function j => some (decide (i = j))
    | .array i, .array j =>
      if i = j || path.contains (left, right) then some true
      else
        let xs := (store.elements i).toList
        let ys := (store.elements j).toList
        if xs.length = ys.length then
          (xs.zip ys).allM fun (x, y) => store.equalWithin depth ((left, right) :: path) x y
        else some false
    | .object i, .object j =>
      if i = j || path.contains (left, right) then some true
      else
        let xs := store.properties i
        let ys := store.properties j
        if sameKeys xs ys then
          xs.entries.allM fun (key, x) =>
            store.equalWithin depth ((left, right) :: path) x ((ys.get? key).getD .null)
        else some false
    | _, _ => some false

/-- The number of pairs of arrays and of pairs of objects. -/
def pairCount (store : Store) : Nat :=
  store.arrays.size * store.arrays.size + store.objects.size * store.objects.size

/-- Whether two values are equal. -/
def equal (store : Store) (left right : Value) : Bool :=
  (store.equalWithin (store.pairCount + 1) [] left right).getD false

end Script.Store

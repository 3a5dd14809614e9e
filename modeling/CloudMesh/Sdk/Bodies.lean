import CloudMesh.Sdk.Numbers

/-!
# Bodies of errors

What `response.json()` and `json.loads` make of the same body, and what `??` and `or` make of a
member of it. Both read JSON texts; they differ in the numbers, which JavaScript rounds to doubles
and Python rounds only where they have a point or an exponent, and at the edges of JSON.

## Main definitions

- `Tree` — a value over the numbers that a reader knows
- `Body` — a body by who reads it
- `Body.Printable` — the message of a body is one that `new Error` takes
- `Body.CodeAlike` — both clients take the same code from a body
- `code_eq_code_iff` — and only then
-/

namespace CloudMesh

namespace Sdk

/-! ## Values -/

inductive Tree (ν : Type)
  | null
  | bool (b : Bool)
  | number (x : ν)
  | string (s : JsString)
  | array (items : List (Tree ν))
  | object (fields : List (JsString × Tree ν))

namespace Tree

variable {ν μ : Type}

mutual

def map (f : ν → μ) : Tree ν → Tree μ
  | .null => .null
  | .bool b => .bool b
  | .number x => .number (f x)
  | .string s => .string s
  | .array items => .array (mapItems f items)
  | .object fields => .object (mapFields f fields)

def mapItems (f : ν → μ) : List (Tree ν) → List (Tree μ)
  | [] => []
  | item :: items => item.map f :: mapItems f items

def mapFields (f : ν → μ) : List (JsString × Tree ν) → List (JsString × Tree μ)
  | [] => []
  | (key, value) :: fields => (key, value.map f) :: mapFields f fields

end

mutual

/-- The numbers of a value. -/
def numbers : Tree ν → List ν
  | .number x => [x]
  | .array items => numbersOfItems items
  | .object fields => numbersOfFields fields
  | _ => []

def numbersOfItems : List (Tree ν) → List ν
  | [] => []
  | item :: items => item.numbers ++ numbersOfItems items

def numbersOfFields : List (JsString × Tree ν) → List ν
  | [] => []
  | (_, value) :: fields => value.numbers ++ numbersOfFields fields

end

/-- A member; what is no object has none. -/
def get? (key : JsString) : Tree ν → Option (Tree ν)
  | .object fields => fields.lookup key
  | _ => none

def isNull : Tree ν → Bool
  | .null => true
  | _ => false

def toStringKey : JsString := utf16 "toString"

mutual

/-- JavaScript can make a string of the value. A member `toString` is no function and hides the
one that every object has. -/
def printable : Tree ν → Bool
  | .array items => printableItems items
  | .object fields => (fields.lookup toStringKey).isNone
  | _ => true

def printableItems : List (Tree ν) → Bool
  | [] => true
  | item :: items => item.printable && printableItems items

end

mutual

/-- Two readings of a value are the same when they are of each of its numbers. -/
theorem map_eq_map_iff (f g : ν → μ) :
    ∀ t : Tree ν, t.map f = t.map g ↔ ∀ x ∈ t.numbers, f x = g x
  | .null => by simp [map, numbers]
  | .bool b => by simp [map, numbers]
  | .number x => by simp [map, numbers]
  | .string s => by simp [map, numbers]
  | .array items => by simp [map, numbers, mapItems_eq_iff f g items]
  | .object fields => by simp [map, numbers, mapFields_eq_iff f g fields]

theorem mapItems_eq_iff (f g : ν → μ) :
    ∀ items : List (Tree ν),
      mapItems f items = mapItems g items ↔ ∀ x ∈ numbersOfItems items, f x = g x
  | [] => by simp [mapItems, numbersOfItems]
  | item :: items => by
    rw [mapItems, mapItems, numbersOfItems, List.cons.injEq, map_eq_map_iff f g item,
      mapItems_eq_iff f g items, List.forall_mem_append]

theorem mapFields_eq_iff (f g : ν → μ) :
    ∀ fields : List (JsString × Tree ν),
      mapFields f fields = mapFields g fields ↔ ∀ x ∈ numbersOfFields fields, f x = g x
  | [] => by simp [mapFields, numbersOfFields]
  | (key, value) :: fields => by
    rw [mapFields, mapFields, numbersOfFields, List.cons.injEq, Prod.mk.injEq,
      map_eq_map_iff f g value, mapFields_eq_iff f g fields, List.forall_mem_append]
    simp

end

theorem lookup_mapFields (f : ν → μ) (key : JsString) (fields : List (JsString × Tree ν)) :
    (mapFields f fields).lookup key = (fields.lookup key).map (map f) := by
  induction fields with
  | nil => rfl
  | cons field fields ih =>
    rw [mapFields, List.lookup, List.lookup]
    cases key == field.1 with
    | true => rfl
    | false => exact ih

theorem get?_map (f : ν → μ) (key : JsString) (t : Tree ν) :
    (t.map f).get? key = (t.get? key).map (map f) := by
  cases t with
  | object fields => exact lookup_mapFields f key fields
  | _ => rfl

theorem map_eq_string_iff (f : ν → μ) {t : Tree ν} {s : JsString} :
    t.map f = .string s ↔ t = .string s := by
  cases t <;> simp [map]

@[simp] theorem isNull_map (f : ν → μ) (t : Tree ν) : (t.map f).isNull = t.isNull := by
  cases t <;> rfl

end Tree

/-! ## Numbers -/

/-- A number as a body has it. The last two are words that `json.loads` takes. -/
inductive Numeral
  | int (k : ℤ)
  | decimal (x : ℚ)
  | nan
  | infinity (negative : Bool)

namespace Numeral

def isJson : Numeral → Bool
  | .int _ | .decimal _ => true
  | _ => false

def js : Numeral → Numeric
  | .int k => .ofRat k
  | .decimal x => .ofRat x
  | .nan => .nan
  | .infinity negative => .infinity negative

def py : Numeral → Numeric
  | .int k => .finite k
  | .decimal x => .ofRat x
  | .nan => .nan
  | .infinity negative => .infinity negative

/-- A whole number that is a double. -/
def Exact : Numeral → Prop
  | .int k => Numeric.ofRat k = .finite k
  | _ => True

theorem js_eq_py_iff (x : Numeral) : x.js = x.py ↔ x.Exact := by
  cases x <;> simp [js, py, Exact]

end Numeral

/-! ## Bodies -/

/-- A body. `text` is what both read, but for the words that only `json.loads` takes. `lenient` is
what only `response.json()` reads: bytes that are no UTF-8, which it replaces, a byte order mark,
which it drops, and whole numbers or nestings beyond the limits of Python. -/
inductive Body
  | text (t : Tree Numeral)
  | lenient (t : Tree Numeral)
  | other

def Tree.isJson (t : Tree Numeral) : Bool := t.numbers.all Numeral.isJson

/-- `response.json()`. -/
def Body.json : Body → Option (Tree Numeric)
  | .text t | .lenient t => if t.isJson then some (t.map Numeral.js) else none
  | .other => none

/-- `json.loads(exc.read().decode("utf-8"))`. -/
def Body.loads : Body → Option (Tree Numeric)
  | .text t => some (t.map Numeral.py)
  | _ => none

/-- `payload if isinstance(payload, dict) else None`. -/
def dictOnly : Tree Numeric → Option (Tree Numeric)
  | .object fields => some (.object fields)
  | _ => none

/-- The truth of a value of Python. -/
def truthy : Tree Numeric → Bool
  | .null => false
  | .bool b => b
  | .number x => x ≠ .finite 0
  | .string s => s ≠ []
  | .array items => !items.isEmpty
  | .object fields => !fields.isEmpty

/-- `body?.[key] ?? fallback`. -/
def nullish (body : Option (Tree Numeric)) (key : JsString) (fallback : Tree Numeric) :
    Tree Numeric :=
  (body.bind (·.get? key)).elim fallback fun value => if value.isNull then fallback else value

/-- `(body or {}).get(key) or fallback`. -/
def getOr (body : Option (Tree Numeric)) (key : JsString) (fallback : Tree Numeric) :
    Tree Numeric :=
  (body.bind (·.get? key)).elim fallback fun value => if truthy value then value else fallback

def errorKey : JsString := utf16 "error"

def codeKey : JsString := utf16 "code"

def unknown : JsString := utf16 "UNKNOWN"

theorem unknown_ne_nil : unknown ≠ [] := by decide

/-! ## Messages -/

/-- `new Error` takes what JavaScript reads as the message. -/
def Body.Printable (b : Body) : Prop :=
  ∀ t, b.json = some t → ∀ m, t.get? errorKey = some m → m.printable = true

theorem printable_nullish_iff (b : Body) (fallback : JsString) :
    (nullish b.json errorKey (.string fallback)).printable = true ↔ b.Printable := by
  rw [nullish, Body.Printable]
  cases b.json with
  | none => simp [Tree.printable]
  | some t =>
    simp only [Option.bind_some, Option.some.injEq, forall_eq']
    cases t.get? errorKey with
    | none => simp [Tree.printable]
    | some m => cases m <;> simp [Tree.isNull, Tree.printable]

/-! ## Codes -/

/-- The code of the JavaScript error. -/
def jsCode (b : Body) : Tree Numeric := nullish b.json codeKey (.string unknown)

/-- The code of the Python error. -/
def pyCode (b : Body) : Tree Numeric := getOr (b.loads.bind dictOnly) codeKey (.string unknown)

/-- A body that has both clients report one code. A value that Python takes for false is one that
JavaScript reports, unless it is `null`; a number must survive as a double. -/
def Body.CodeAlike : Body → Prop
  | .text t =>
    if t.isJson then
      ∀ c, t.get? codeKey = some c → c.isNull = false →
        truthy (c.map Numeral.py) = true ∧ ∀ x ∈ c.numbers, x.Exact
    else ∀ c, t.get? codeKey = some c → truthy (c.map Numeral.py) = true → c = .string unknown
  | .lenient t =>
    t.isJson = true → ∀ c, t.get? codeKey = some c → c.isNull = false → c = .string unknown
  | .other => True

theorem dictOnly_get? (key : JsString) (body : Option (Tree Numeric)) :
    (body.bind dictOnly).bind (·.get? key) = body.bind (·.get? key) := by
  cases body with
  | none => rfl
  | some t => cases t <;> rfl

/-- What JavaScript reports of a text it reads. -/
theorem nullish_map (t : Tree Numeral) (key : JsString) (fallback : Tree Numeric) :
    nullish (some (t.map Numeral.js)) key fallback =
      (t.get? key).elim fallback fun c => if c.isNull then fallback else c.map Numeral.js := by
  rw [nullish, Option.bind_some, Tree.get?_map]
  cases t.get? key with
  | none => rfl
  | some c => simp

theorem getOr_map (t : Tree Numeral) (key : JsString) (fallback : Tree Numeric) :
    getOr ((some (t.map Numeral.py)).bind dictOnly) key fallback =
      (t.get? key).elim fallback fun c =>
        if truthy (c.map Numeral.py) then c.map Numeral.py else fallback := by
  rw [getOr, dictOnly_get?, Option.bind_some, Tree.get?_map]
  cases t.get? key with
  | none => rfl
  | some c => rfl

theorem truthy_of_map_eq_string {f g : Numeral → Numeric} {c : Tree Numeral}
    (h : c.map f = .string unknown) : truthy (c.map g) = true := by
  rw [(Tree.map_eq_string_iff f).mp h]
  exact decide_eq_true unknown_ne_nil

theorem truthy_of_isNull {c : Tree Numeric} (h : c.isNull = true) : truthy c = false := by
  cases c with
  | null => rfl
  | _ => cases h

theorem code_eq_code_iff (b : Body) : jsCode b = pyCode b ↔ b.CodeAlike := by
  cases b with
  | other => exact iff_of_true rfl trivial
  | lenient t =>
    rw [Body.CodeAlike]
    show nullish _ codeKey (.string unknown) = .string unknown ↔ _
    cases hjson : t.isJson with
    | false => simp [Body.json, hjson, nullish]
    | true =>
      rw [Body.json, if_pos hjson, nullish_map, imp_iff_right rfl]
      cases t.get? codeKey with
      | none => simp
      | some c => cases hnull : c.isNull <;> simp [hnull, Tree.map_eq_string_iff]
  | text t =>
    rw [jsCode, pyCode, Body.json, Body.loads, getOr_map, Body.CodeAlike]
    cases hjson : t.isJson with
    | false =>
      rw [if_neg Bool.false_ne_true, if_neg Bool.false_ne_true]
      show Tree.string unknown = _ ↔ _
      cases t.get? codeKey with
      | none => simp
      | some c =>
        cases htrue : truthy (c.map Numeral.py) with
        | false => simp [htrue]
        | true =>
          rw [eq_comm]
          simp [htrue, Tree.map_eq_string_iff]
    | true =>
      rw [if_pos rfl, if_pos rfl, nullish_map]
      cases t.get? codeKey with
      | none => simp
      | some c =>
        cases hnull : c.isNull with
        | true =>
          have hc : truthy (c.map Numeral.py) = false := truthy_of_isNull (by simp [hnull])
          simp [hnull, hc]
        | false =>
          cases htrue : truthy (c.map Numeral.py) with
          | true => simp [hnull, htrue, Tree.map_eq_map_iff, Numeral.js_eq_py_iff]
          | false =>
            -- JavaScript reports the value itself, which is not the name of no code.
            have hne : c.map Numeral.js ≠ .string unknown := by
              intro h
              rw [truthy_of_map_eq_string h] at htrue
              cases htrue
            simp [hnull, htrue, hne]

end Sdk

end CloudMesh

import AuthProvValidator.Base.Text

/-!
# rapidjson documents

`Json` is a parsed document: an object is the list of its members in textual order, names may repeat.

* `find ms name` : the first member of that name, which is what `FindMember` and `operator[]` look for;
* the accessors of `rapidjson::Value` (`hasMember`, `index`, `members`, `elements`, `getString`, `getInt`) with the
  assertion each of them makes (`Assertion`).

`GetString` yields a `const char*`, so every text read from a document ends at its first NUL.
-/

namespace AuthProvValidator

/-- A JSON value. A number is an integer literal or keeps the text of its fraction or exponent. -/
inductive Json where
  | null
  | bool (b : Bool)
  | int (n : Int)
  | double (text : Str)
  | str (s : Str)
  | arr (vs : List Json)
  | obj (ms : List (Str × Json))

inductive Assertion where
  | notObject
  | missingMember
  | notArray
  | notString
  | notInt
deriving DecidableEq

namespace Json

def find (ms : List (Str × Json)) (name : Str) : Option Json := ms.lookup name

def isObject : Json → Bool
  | .obj _ => true
  | _ => false

def isArray : Json → Bool
  | .arr _ => true
  | _ => false

def isString : Json → Bool
  | .str _ => true
  | _ => false

/-- `IsInt`: an integer literal in the range of `int`. -/
def isInt : Json → Bool
  | .int n => decide (-2147483648 ≤ n ∧ n ≤ 2147483647)
  | _ => false

/-- `MemberBegin()` to `MemberEnd()`. -/
def members : Json → Except Assertion (List (Str × Json))
  | .obj ms => .ok ms
  | _ => .error .notObject

def hasMember (v : Json) (name : Str) : Except Assertion Bool := do
  let ms ← v.members
  return (find ms name).isSome

/-- `v[name]`, also `FindMember(name)->value` once the member is known to be there. -/
def index (v : Json) (name : Str) : Except Assertion Json := do
  let ms ← v.members
  match find ms name with
  | some w => return w
  | none => throw .missingMember

/-- `GetArray()`, also `Begin()` to `End()`. -/
def elements : Json → Except Assertion (List Json)
  | .arr vs => .ok vs
  | _ => .error .notArray

def getString : Json → Except Assertion Str
  | .str s => .ok s.cStr
  | _ => .error .notString

def getInt (v : Json) : Except Assertion Int :=
  match v with
  | .int n => if v.isInt then .ok n else .error .notInt
  | _ => .error .notInt

section Lemmas
variable {ms : List (Str × Json)} {name : Str} {v : Json}

theorem find_cons {m : Str × Json} :
    find (m :: ms) name = if name = m.1 then some m.2 else find ms name := by
  rw [find, List.lookup_cons]
  by_cases h : name = m.1
  · rw [if_pos h, beq_iff_eq.mpr h]
  · rw [if_neg h, beq_eq_false_iff_ne.mpr h, find]

theorem find_append {ms' : List (Str × Json)} : find (ms ++ ms') name = (find ms name).or (find ms' name) :=
  List.lookup_append

theorem mem_of_find (h : find ms name = some v) : (name, v) ∈ ms := by
  induction ms with
  | nil => cases h
  | cons m ms ih =>
    rw [find_cons] at h
    split at h
    · rename_i hname
      obtain rfl := Option.some.inj h
      rw [hname]
      exact List.mem_cons_self
    · exact List.mem_cons_of_mem _ (ih h)

theorem find_eq_some_iff (hnodup : (ms.map Prod.fst).Nodup) : find ms name = some v ↔ (name, v) ∈ ms := by
  refine ⟨mem_of_find, fun h => ?_⟩
  induction ms with
  | nil => exact absurd h List.not_mem_nil
  | cons m ms ih =>
    rw [List.map_cons, List.nodup_cons] at hnodup
    rw [find_cons]
    rcases List.mem_cons.mp h with rfl | hin
    · exact if_pos rfl
    · have hne : name ≠ m.1 := by
        intro hname
        apply hnodup.1
        rw [← hname]
        exact List.mem_map_of_mem hin
      rw [if_neg hne, ih hnodup.2 hin]

@[simp] theorem members_obj : (obj ms).members = .ok ms := rfl

@[simp] theorem hasMember_obj : (obj ms).hasMember name = .ok (find ms name).isSome := rfl

theorem index_obj (h : find ms name = some v) : (obj ms).index name = .ok v := by
  simp [index, h, bind, Except.bind, pure, Except.pure]

theorem index_missing (h : find ms name = none) : (obj ms).index name = .error .missingMember := by
  simp [index, h, bind, Except.bind, throw, throwThe, MonadExceptOf.throw]

theorem isObject_iff : v.isObject = true ↔ ∃ ms, v = obj ms := by cases v <;> simp [isObject]

theorem isArray_iff : v.isArray = true ↔ ∃ vs, v = arr vs := by cases v <;> simp [isArray]

theorem isInt_iff : v.isInt = true ↔ ∃ n, v = int n ∧ -2147483648 ≤ n ∧ n ≤ 2147483647 := by
  cases v <;> simp [isInt]

theorem getInt_of_isInt (h : v.isInt = true) : ∃ n, v.getInt = .ok n := by
  obtain ⟨n, rfl, -⟩ := isInt_iff.mp h
  exact ⟨n, by simp [getInt, h]⟩

theorem getInt_of_not_isInt (h : ¬ v.isInt = true) : v.getInt = .error .notInt := by
  cases v <;> simp_all [getInt]

end Lemmas

end Json

end AuthProvValidator

import Mathlib.Data.UInt

/-!
# JSON values

JSON values with byte strings, and the two accessors that message handlers use:
looking up a member of an object and reading a string.

Main results:

- Definition {lit}`Json.find`: member lookup, which finds nothing outside objects.
- Definition {lit}`Json.getString`: the string of a string value.
- Theorem {lit}`Json.findString_obj_iff`: what is found in an object of strings.
-/

/-- JSON values over byte strings; numbers are integers. -/
inductive Json where
  | null
  | bool (b : Bool)
  | number (n : Int)
  | str (s : List UInt8)
  | arr (items : List Json)
  | obj (members : List (List UInt8 × Json))

namespace Json

/-- The value of a member of an object. -/
def find (j : Json) (name : List UInt8) : Option Json :=
  match j with
  | .obj members => members.lookup name
  | _ => none

/-- The string of a string value. -/
def getString : Json → Option (List UInt8)
  | .str s => some s
  | _ => none

/-- The string of a string member. -/
def findString (j : Json) (name : List UInt8) : Option (List UInt8) :=
  (j.find name).bind getString

@[simp]
theorem getString_str (s : List UInt8) : (Json.str s).getString = some s :=
  rfl

/-- The first member of an object is found under its name. -/
@[simp]
theorem find_obj_cons_self (name : List UInt8) (value : Json)
    (members : List (List UInt8 × Json)) :
    (Json.obj ((name, value) :: members)).find name = some value := by
  simp [find]

/-- The first member of an object hides no other name. -/
theorem find_obj_cons_of_ne {name name' : List UInt8} (h : name' ≠ name) (value : Json)
    (members : List (List UInt8 × Json)) :
    (Json.obj ((name, value) :: members)).find name' = (Json.obj members).find name' := by
  have hne : (name' == name) = false := by simpa using h
  simp [find, List.lookup_cons, hne]

/-- In an object whose members are strings under different names, exactly the members are
found. -/
theorem findString_obj_iff {members : List (List UInt8 × List UInt8)}
    (hnodup : (members.map Prod.fst).Nodup) {name value : List UInt8} :
    (Json.obj (members.map fun member => (member.1, Json.str member.2))).findString name =
      some value ↔ (name, value) ∈ members := by
  induction members with
  | nil => simp [findString, find]
  | cons member members ih =>
      rw [List.map_cons, List.nodup_cons] at hnodup
      rw [List.map_cons, List.mem_cons]
      by_cases hname : name = member.1
      · subst hname
        have hnot : (member.1, value) ∉ members := fun hmem =>
          hnodup.1 (List.mem_map.mpr ⟨_, hmem, rfl⟩)
        simp [findString, hnot, Prod.ext_iff, eq_comm]
      · have hhead : (name, value) ≠ member := fun heq => hname (congrArg Prod.fst heq)
        rw [findString, find_obj_cons_of_ne hname, ← findString, ih hnodup.2]
        simp [hhead]

end Json

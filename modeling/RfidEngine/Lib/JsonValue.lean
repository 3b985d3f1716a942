import Mathlib.Data.List.Basic

/-!
# JSON values

Values of the kinds that a record of flags, numbers and texts is made of.
Reading a member has no result where the value is no object, where the object
lacks the key, or where the member is of another kind. The members of an object
have no order: a library may give them back in another one, which no decoder
that reads them by their keys can tell. An array of values that are all read
back as they were written is itself read back.
-/

namespace JsonValue

inductive Json where
  | boolean (b : Bool)
  | integer (n : Int)
  | text (s : List Char)
  | object (members : List (String × Json))

namespace Json

/-- The member of a key. -/
def member (key : String) : Json → Option Json
  | object members => members.lookup key
  | _ => none

/-- The member of a key, read by the decoder of its kind. -/
def field {α : Type*} (j : Json) (key : String) (decode : Json → Option α) : Option α :=
  (j.member key).bind decode

def getBoolean : Json → Option Bool
  | boolean b => some b
  | _ => none

def getInteger : Json → Option Int
  | integer n => some n
  | _ => none

def getText : Json → Option (List Char)
  | text s => some s
  | _ => none

@[simp] theorem getBoolean_boolean (b : Bool) : getBoolean (boolean b) = some b := rfl

@[simp] theorem getInteger_integer (n : Int) : getInteger (integer n) = some n := rfl

@[simp] theorem getText_text (s : List Char) : getText (text s) = some s := rfl

@[simp] theorem field_nil {α : Type*} (key : String) (decode : Json → Option α) :
    (object []).field key decode = none := rfl

@[simp] theorem field_cons {α : Type*} (key k : String) (j : Json)
    (members : List (String × Json)) (decode : Json → Option α) :
    (object ((k, j) :: members)).field key decode =
      if key = k then decode j else (object members).field key decode := by
  by_cases hkey : key = k
  · subst hkey
    simp [field, member]
  · have hbeq : (key == k) = false := beq_false_of_ne hkey
    simp [field, member, List.lookup_cons, hbeq, hkey]

/-- Values that differ at most in the order of the members of their objects. -/
inductive Same : Json → Json → Prop where
  | boolean (b : Bool) : Same (boolean b) (boolean b)
  | integer (n : Int) : Same (integer n) (integer n)
  | text (s : List Char) : Same (text s) (text s)
  | object {members members' : List (String × Json)}
      (keys : ∀ key, (members.lookup key).isSome = (members'.lookup key).isSome)
      (values : ∀ key j j', members.lookup key = some j → members'.lookup key = some j' →
        Same j j') : Same (object members) (object members')

theorem Same.empty : Same (Json.object []) (Json.object []) :=
  .object (fun _ => rfl) fun _ _ _ h => absurd h (by simp)

/-- A member may stand anywhere behind members with other keys. -/
theorem Same.pick {key : String} {j j' : Json} {members members' : List (String × Json)} (i : Nat)
    (hplace : members'[i]? = some (key, j')) (hkey : (members'.take i).lookup key = none)
    (hj : Same j j') (h : Same (Json.object members) (Json.object (members'.eraseIdx i))) :
    Same (Json.object ((key, j) :: members)) (Json.object members') := by
  obtain ⟨hlt, hget⟩ := List.getElem?_eq_some_iff.mp hplace
  have hsplit : members' = members'.take i ++ (key, j') :: members'.drop (i + 1) := by
    rw [← hget, ← List.drop_eq_getElem_cons hlt, List.take_append_drop]
  rw [List.eraseIdx_eq_take_drop_succ] at h
  generalize members'.take i = before at hkey hsplit h
  generalize members'.drop (i + 1) = after at hsplit h
  have hown : members'.lookup key = some j' := by
    rw [hsplit, List.lookup_append, hkey, List.lookup_cons_self]
    rfl
  have hother : ∀ k, k ≠ key → members'.lookup k = (before ++ after).lookup k := by
    intro k hk
    rw [hsplit, List.lookup_append, List.lookup_append, List.lookup_cons, beq_false_of_ne hk]
  cases h with
  | object keys values =>
      refine .object (fun k => ?_) fun k v v' hv hv' => ?_
      · by_cases hk : k = key
        · rw [hk, hown, List.lookup_cons_self]
          rfl
        · rw [hother k hk, List.lookup_cons, beq_false_of_ne hk]
          exact keys k
      · by_cases hk : k = key
        · rw [hk, List.lookup_cons_self] at hv
          rw [hk, hown] at hv'
          exact Option.some.inj hv ▸ Option.some.inj hv' ▸ hj
        · rw [List.lookup_cons, beq_false_of_ne hk] at hv
          rw [hother k hk] at hv'
          exact values k v v' hv hv'

/-- The decoder reads the same out of values that differ in the order of members only. -/
def Respects {α : Type*} (decode : Json → Option α) : Prop :=
  ∀ {j j' : Json}, Same j j' → decode j = decode j'

theorem respects_getBoolean : Respects getBoolean := fun h => by cases h <;> rfl

theorem respects_getInteger : Respects getInteger := fun h => by cases h <;> rfl

theorem respects_getText : Respects getText := fun h => by cases h <;> rfl

theorem Same.field {α : Type*} {j j' : Json} (h : Same j j') (key : String)
    {decode : Json → Option α} (hdecode : Respects decode) :
    j.field key decode = j'.field key decode := by
  cases h with
  | object keys values =>
      rename_i members members'
      have hkey := keys key
      cases hj : members.lookup key with
      | none =>
          rw [hj, Option.isSome_none] at hkey
          have hj' := Option.isSome_eq_false_iff.mp hkey.symm
          rw [Option.isNone_iff_eq_none] at hj'
          simp [Json.field, member, hj, hj']
      | some value =>
          rw [hj, Option.isSome_some] at hkey
          obtain ⟨value', hj'⟩ := Option.isSome_iff_exists.mp hkey.symm
          simp [Json.field, member, hj, hj', hdecode (values key value value' hj hj')]
  | _ => rfl

end Json

/-- Writing a value and reading it again gives it back. -/
def RoundTrips {α : Type*} (encode : α → Json) (decode : Json → Option α) (a : α) : Prop :=
  decode (encode a) = some a

/-- Where each value is read back as it was written or refused, the array is read back exactly if
none of its values is refused. -/
theorem mapM_map_encode {α : Type*} {encode : α → Json} {decode : Json → Option α} {as : List α}
    (h : ∀ a ∈ as, RoundTrips encode decode a ∨ decode (encode a) = none) :
    ((as.map encode).mapM decode = some as ∧ ∀ a ∈ as, RoundTrips encode decode a) ∨
      ((as.map encode).mapM decode = none ∧ ∃ a ∈ as, ¬ RoundTrips encode decode a) := by
  induction as with
  | nil => exact Or.inl ⟨rfl, fun _ ha => absurd ha List.not_mem_nil⟩
  | cons a as ih =>
      obtain ⟨hfirst, hrest⟩ := List.forall_mem_cons.mp h
      rw [List.map_cons, List.mapM_cons]
      cases hfirst with
      | inl hback =>
          have hread : decode (encode a) = some a := hback
          obtain ⟨hall, hevery⟩ | ⟨hnone, b, hb, hrefused⟩ := ih hrest
          · refine Or.inl ⟨?_, List.forall_mem_cons.mpr ⟨hback, hevery⟩⟩
            rw [hread, hall]
            rfl
          · refine Or.inr ⟨?_, b, List.mem_cons_of_mem a hb, hrefused⟩
            rw [hread, hnone]
            rfl
      | inr hnone =>
          refine Or.inr ⟨?_, a, List.mem_cons_self, fun hback => ?_⟩
          · rw [hnone]
            rfl
          · rw [RoundTrips, hnone] at hback
            exact absurd hback.symm (Option.some_ne_none a)

/-- A decoder that respects the values reads the same out of the arrays. -/
theorem Json.Respects.mapM {α : Type*} {decode : Json → Option α} (h : Json.Respects decode)
    {js js' : List Json} (hsame : List.Forall₂ Json.Same js js') :
    js.mapM decode = js'.mapM decode := by
  induction hsame with
  | nil => rfl
  | cons hfirst _ ih => rw [List.mapM_cons, List.mapM_cons, h hfirst, ih]

/-- A library that writes arrays as texts, where it can, and reads what it has written; the
members of the objects may then be in another order. -/
structure ArrayTexts where
  dump : List Json → Option (List Char)
  parse : List Char → Option (List Json)
  parse_dump : ∀ {js s}, dump js = some s →
    ∃ js', parse s = some js' ∧ List.Forall₂ Json.Same js js'

open Classical in
/-- A library that knows the text of one array, and reads it with the members in its own order. -/
noncomputable def ArrayTexts.only (known ordered : List Json) (text : List Char)
    (hsame : List.Forall₂ Json.Same known ordered) : ArrayTexts where
  dump js := if js = known then some text else none
  parse s := if s = text then some ordered else none
  parse_dump := by
    intro js s h
    split at h
    · rename_i hjs
      obtain rfl := Option.some.inj h
      exact ⟨ordered, if_pos rfl, hjs.symm ▸ hsame⟩
    · exact absurd h.symm (Option.some_ne_none s)

/-- The values of a text. -/
def ArrayTexts.read {α : Type*} (texts : ArrayTexts) (decode : Json → Option α) (s : List Char) :
    Option (List α) :=
  (texts.parse s).bind fun js => js.mapM decode

theorem ArrayTexts.read_dump {α : Type*} (texts : ArrayTexts) {decode : Json → Option α}
    (hdecode : Json.Respects decode) {js : List Json} {s : List Char} (h : texts.dump js = some s) :
    texts.read decode s = js.mapM decode := by
  obtain ⟨js', hparse, hsame⟩ := texts.parse_dump h
  rw [read, hparse, Option.bind_some, hdecode.mapM hsame]

end JsonValue

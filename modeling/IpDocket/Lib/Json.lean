import IpDocket.Lib.Decimal

/-!
# JSON values of the host language

A value is what `json.loads` returns; a `dict` is the list of its fields in the order of their
insertion. `Json.dumps` is `json.dumps` with `ensure_ascii=False`. A stored document is kept as
its value: reading back what was written gives the same value.

A text search through the stored documents finds a field with `LIKE` when neither JSON nor the
pattern escapes a character of it.
-/

namespace IpDocket.Lib

inductive Json (F : Type)
  | null
  | bool (b : Bool)
  | int (n : ℤ)
  | float (x : F)
  | str (t : Text)
  | arr (items : List (Json F))
  | obj (fields : List (Text × Json F))

/-- The floats, and `str` of a list or a `dict`. -/
structure PyHost (T : UnicodeTables) where
  floats : PyFloat T
  strContainer : Json floats.carrier → Text

section Fields

variable {F : Type}

/-- `fields.get(key)`. -/
def field (fields : List (Text × Json F)) (key : Text) : Json F :=
  (fields.lookup key).getD .null

/-- `fields[key] = v`. -/
def setField (key : Text) (v : Json F) : List (Text × Json F) → List (Text × Json F)
  | [] => [(key, v)]
  | (k, w) :: fields => if k = key then (key, v) :: fields else (k, w) :: setField key v fields

lemma field_cons (k key : Text) (w : Json F) (fields : List (Text × Json F)) :
    field ((k, w) :: fields) key = if k = key then w else field fields key := by
  unfold field
  by_cases h : k = key
  · rw [if_pos h, h, List.lookup_cons_self]
    rfl
  · have hne : (key == k) = false := by simpa using Ne.symm h
    rw [if_neg h, List.lookup_cons, hne]

@[simp] lemma field_setField (key key' : Text) (v : Json F) (fields : List (Text × Json F)) :
    field (setField key v fields) key' = if key' = key then v else field fields key' := by
  induction fields with
  | nil =>
    rw [setField, field_cons]
    simp only [eq_comm]
  | cons kw fields ih =>
    obtain ⟨k, w⟩ := kw
    rw [setField]
    split
    · next h =>
      rw [field_cons, field_cons, h]
      simp only [@eq_comm _ key key']
      split <;> rfl
    · next h =>
      rw [field_cons, field_cons, ih]
      split
      · next hk =>
        rw [if_neg (fun heq => h (hk.trans heq))]
      · rfl

lemma mem_of_field {key : Text} {v : Json F} {fields : List (Text × Json F)}
    (h : field fields key = v) (hv : v ≠ .null) : (key, v) ∈ fields := by
  induction fields with
  | nil => exact absurd h.symm hv
  | cons kw fields ih =>
    obtain ⟨k, w⟩ := kw
    rw [field_cons] at h
    split at h
    · next hk =>
      rw [hk, h]
      exact List.mem_cons_self
    · exact List.mem_cons_of_mem _ (ih h)

lemma field_of_notMem {fields : List (Text × Json F)} {key : Text}
    (h : key ∉ fields.map Prod.fst) : field fields key = .null := by
  induction fields with
  | nil => rfl
  | cons kv fields ih =>
    rw [List.map_cons, List.mem_cons, not_or] at h
    rw [field_cons, if_neg (Ne.symm h.1)]
    exact ih h.2

lemma field_append_of_mem {fields rest : List (Text × Json F)} {key : Text}
    (h : key ∈ fields.map Prod.fst) : field (fields ++ rest) key = field fields key := by
  induction fields with
  | nil => cases h
  | cons kv fields ih =>
    obtain ⟨k, v⟩ := kv
    rw [List.cons_append, field_cons, field_cons]
    split
    · rfl
    · next hk =>
      rw [List.map_cons, List.mem_cons] at h
      exact ih (h.resolve_left (fun heq => hk heq.symm))

lemma field_map {α : Type} {key : α → Text} {l : List α} (hl : (l.map key).Nodup)
    (f : α → Json F) {x : α} (hx : x ∈ l) : field (l.map (fun x => (key x, f x))) (key x) = f x := by
  induction l with
  | nil => cases hx
  | cons y l ih =>
    rw [List.map_cons, List.nodup_cons] at hl
    rw [List.map_cons, field_cons]
    obtain rfl | hx := List.mem_cons.mp hx
    · rw [if_pos rfl]
    · have hne : key y ≠ key x := by
        intro h
        apply hl.1
        rw [h]
        exact List.mem_map_of_mem hx
      rw [if_neg hne]
      exact ih hl.2 hx

end Fields

section Host

variable {T : UnicodeTables} (H : PyHost T)

/-- `bool(v)`. -/
def pyTruthy : Json H.floats.carrier → Bool
  | .null => false
  | .bool b => b
  | .int n => n ≠ 0
  | .float x => !H.floats.isZero x
  | .str t => t ≠ []
  | .arr items => !items.isEmpty
  | .obj fields => !fields.isEmpty

/-- `v or w`. -/
def pyOr (v w : Json H.floats.carrier) : Json H.floats.carrier := if pyTruthy H v then v else w

/-- `str(v)`. -/
def pyStr : Json H.floats.carrier → Text
  | .null => "None".toList
  | .bool true => "True".toList
  | .bool false => "False".toList
  | .int n => pyInt n
  | .float x => H.floats.repr x
  | .str t => t
  | .arr items => H.strContainer (.arr items)
  | .obj fields => H.strContainer (.obj fields)

lemma pyStr_str (t : Text) : pyStr H (.str t) = t := rfl

/-- Four hexadecimal digits. -/
def hex4 (n : Nat) : Text := padLeft '0' 4 (Nat.toDigits 16 n)

def escapeChar (c : Char) : Text :=
  if c = '"' then ['\\', '"']
  else if c = '\\' then ['\\', '\\']
  else if c = '\n' then ['\\', 'n']
  else if c = '\r' then ['\\', 'r']
  else if c = '\t' then ['\\', 't']
  else if c.toNat = 8 then ['\\', 'b']
  else if c.toNat = 12 then ['\\', 'f']
  else if c.toNat < 32 then '\\' :: 'u' :: hex4 c.toNat
  else [c]

def dumpsStr (t : Text) : Text := '"' :: t.flatMap escapeChar ++ ['"']

mutual

def dumps : Json H.floats.carrier → Text
  | .null => "null".toList
  | .bool true => "true".toList
  | .bool false => "false".toList
  | .int n => pyInt n
  | .float x => H.floats.dumps x
  | .str t => dumpsStr t
  | .arr items => '[' :: dumpsItems [] items ++ [']']
  | .obj fields => '\x7b' :: dumpsFields [] fields ++ ['\x7d']

def dumpsItems (sep : Text) : List (Json H.floats.carrier) → Text
  | [] => []
  | v :: items => sep ++ dumps v ++ dumpsItems ", ".toList items

def dumpsFields (sep : Text) : List (Text × Json H.floats.carrier) → Text
  | [] => []
  | (k, v) :: fields =>
    sep ++ (dumpsStr k ++ ": ".toList ++ dumps v) ++ dumpsFields ", ".toList fields

end

variable {H}

lemma dumps_infix_dumpsItems {v : Json H.floats.carrier} {items : List (Json H.floats.carrier)}
    (h : v ∈ items) (sep : Text) : dumps H v <:+: dumpsItems H sep items := by
  induction items generalizing sep with
  | nil => cases h
  | cons w items ih =>
    rw [dumpsItems]
    rcases List.mem_cons.mp h with rfl | h
    · exact ⟨sep, dumpsItems H ", ".toList items, rfl⟩
    · exact (ih h ", ".toList).trans (List.suffix_append _ _).isInfix

lemma dumps_infix_dumpsFields {k : Text} {v : Json H.floats.carrier}
    {fields : List (Text × Json H.floats.carrier)} (h : (k, v) ∈ fields) (sep : Text) :
    dumpsStr k ++ ": ".toList ++ dumps H v <:+: dumpsFields H sep fields := by
  induction fields generalizing sep with
  | nil => cases h
  | cons kw fields ih =>
    obtain ⟨l, w⟩ := kw
    rw [dumpsFields]
    rcases List.mem_cons.mp h with heq | h
    · cases heq
      exact ⟨sep, dumpsFields H ", ".toList fields, rfl⟩
    · exact (ih h ", ".toList).trans (List.suffix_append _ _).isInfix

lemma infix_wrap (a b : Char) (t : Text) : t <:+: a :: t ++ [b] := ⟨[a], [b], rfl⟩

/-- The text of an element is found in the text of its list. -/
lemma dumps_infix_arr {v : Json H.floats.carrier} {items : List (Json H.floats.carrier)}
    (h : v ∈ items) : dumps H v <:+: dumps H (.arr items) := by
  rw [dumps]
  exact (dumps_infix_dumpsItems h []).trans (infix_wrap _ _ _)

lemma dumps_infix_obj {k : Text} {v : Json H.floats.carrier}
    {fields : List (Text × Json H.floats.carrier)} (h : (k, v) ∈ fields) :
    dumpsStr k ++ ": ".toList ++ dumps H v <:+: dumps H (.obj fields) := by
  rw [dumps]
  exact (dumps_infix_dumpsFields h []).trans (infix_wrap _ _ _)

/-- A text that JSON writes without an escape. -/
def Unescaped (t : Text) : Prop := ∀ c ∈ t, 32 ≤ c.toNat ∧ c ≠ '"' ∧ c ≠ '\\'

instance (t : Text) : Decidable (Unescaped t) :=
  inferInstanceAs (Decidable (∀ c ∈ t, 32 ≤ c.toNat ∧ c ≠ '"' ∧ c ≠ '\\'))

lemma escapeChar_of_unescaped {c : Char} (h : 32 ≤ c.toNat ∧ c ≠ '"' ∧ c ≠ '\\') :
    escapeChar c = [c] := by
  obtain ⟨hlow, hquote, hslash⟩ := h
  have hctrl : ∀ d : Char, d.toNat < 32 → c ≠ d := by
    intro d hd heq
    rw [heq] at hlow
    omega
  unfold escapeChar
  rw [if_neg hquote, if_neg hslash, if_neg (hctrl _ (by decide)), if_neg (hctrl _ (by decide)),
    if_neg (hctrl _ (by decide)), if_neg (by omega), if_neg (by omega), if_neg (by omega)]

lemma dumpsStr_of_unescaped {t : Text} (h : Unescaped t) : dumpsStr t = '"' :: t ++ ['"'] := by
  have hmap : t.flatMap escapeChar = t := by
    induction t with
    | nil => rfl
    | cons c t ih =>
      rw [List.flatMap_cons, escapeChar_of_unescaped (h c List.mem_cons_self),
        ih (fun d hd => h d (List.mem_cons_of_mem _ hd))]
      rfl
  rw [dumpsStr, hmap]

lemma sqlLike_of_infix {p t : Text} (h : '\\' ∉ p) (hp : p <:+: t) :
    sqlLike ('%' :: p ++ ['%']) t = true := by
  obtain ⟨a, b, rfl⟩ := hp
  rw [List.cons_append, sqlLike]
  refine List.any_eq_true.mpr ⟨p ++ b, ?_, sqlLike_append h b⟩
  rw [List.append_assoc]
  exact (List.mem_tails _ _).mpr (List.suffix_append a (p ++ b))

end Host

end IpDocket.Lib

import Mathlib.Data.List.TakeWhile
import Switchyard.Checksum
import Switchyard.Json.Reader

/-!
# Canonical text tells values apart

No two JSON values have the same canonical text, if the floats in them are told apart by theirs
(`chars_inj`).  What is proved by induction is a little more: the text of a value can be split off a
longer text in one way only, as long as the rest of the text does not go on like a number.

* A string is split off by the reader, which gives back what was quoted.
* A number ends where a character follows that no number is written with.
* What kind of value comes next shows in the first character.

Checksums tell values apart as far as the hash tells their texts apart (`checksum_eq_iff`).
-/

set_option autoImplicit false

namespace Switchyard

namespace Json

/-! ## Strings -/

theorem readUnit?_hexDigits {n : Nat} (hn : n < 65536) (rest : List Char) :
    readUnit? (Text.hexDigits 4 n ++ rest) = some (n, rest) := by
  have htake : (Text.hexDigits 4 n ++ rest).take 4 = Text.hexDigits 4 n :=
    List.take_left' (Text.length_hexDigits 4 n)
  have hdrop : (Text.hexDigits 4 n ++ rest).drop 4 = rest :=
    List.drop_left' (Text.length_hexDigits 4 n)
  have hmod : n % Nat.pow 16 4 = n := Nat.mod_eq_of_lt hn
  rw [readUnit?, htake, hdrop, if_pos (Text.length_hexDigits 4 n), Text.ofHexDigits?_hexDigits,
    hmod, Option.map_some]

/-- A control character that was written by its number reads back. -/
theorem readCodePoint?_hexDigits {c : Char} (hc : c.toNat < 32) (rest : List Char) :
    readCodePoint? (Text.hexDigits 4 c.toNat ++ rest) = some (c, rest) := by
  have hunit := readUnit?_hexDigits (n := c.toNat) (by omega) rest
  rw [readCodePoint?, hunit, Option.bind_eq_bind, Option.bind_some]
  simp only
  rw [if_neg (by omega), if_neg (by omega), Char.ofNat_toNat]

/-- Reading takes one character off a quoted text. -/
theorem readString?_escape (fuel : Nat) (acc : List Char) (c : Char) (rest : List Char) :
    readString? (fuel + 1) acc (escape c ++ rest) = readString? fuel (c :: acc) rest := by
  by_cases hquote : c = '"'
  · subst hquote; rfl
  by_cases hbackslash : c = '\\'
  · subst hbackslash; rfl
  by_cases hn : c = '\n'
  · subst hn; rfl
  by_cases hr : c = '\r'
  · subst hr; rfl
  by_cases ht : c = '\t'
  · subst ht; rfl
  by_cases hb : c = '\x08'
  · subst hb; rfl
  by_cases hf : c = '\x0c'
  · subst hf; rfl
  rw [escape, if_neg hquote, if_neg hbackslash, if_neg hn, if_neg hr, if_neg ht, if_neg hb,
    if_neg hf]
  split
  · rename_i hcontrol
    rw [List.append_assoc, List.cons_append, List.cons_append, List.nil_append, readString?,
      readCodePoint?_hexDigits hcontrol]
    rfl
  · rename_i hcontrol
    rw [List.singleton_append, readString?, if_neg hcontrol] <;> simp_all

theorem readString?_flatMap_escape (cs acc rest : List Char) (fuel : Nat)
    (hfuel : cs.length < fuel) :
    readString? fuel acc (cs.flatMap escape ++ '"' :: rest) = some (cs.reverse ++ acc, rest) := by
  induction cs generalizing acc fuel with
  | nil =>
    obtain ⟨fuel, rfl⟩ := Nat.exists_eq_succ_of_ne_zero (Nat.ne_of_gt hfuel)
    rfl
  | cons c cs ih =>
    rw [List.length_cons] at hfuel
    obtain ⟨fuel, rfl⟩ := Nat.exists_eq_succ_of_ne_zero (Nat.ne_zero_of_lt hfuel)
    rw [List.flatMap_cons, List.append_assoc, readString?_escape, ih _ _ (by omega)]
    simp

theorem length_le_length_flatMap_escape (cs : List Char) :
    cs.length ≤ (cs.flatMap escape).length := by
  induction cs with
  | nil => exact Nat.le_refl 0
  | cons c cs ih =>
    have hpos : 1 ≤ (escape c).length := by
      unfold escape
      split_ifs <;> simp
    rw [List.flatMap_cons, List.length_append, List.length_cons]
    omega

/-- **The reader gives back what was quoted.** -/
theorem readText?_quote (s : String) (rest : List Char) :
    readText? (s.toList.flatMap escape ++ '"' :: rest) = some (s, rest) := by
  have hlength := length_le_length_flatMap_escape s.toList
  rw [readText?, readString?_flatMap_escape _ _ _ _ (by rw [List.length_append]; omega)]
  simp

theorem quote_append_inj {s t : String} {a b : List Char} (h : quote s ++ a = quote t ++ b) :
    s = t ∧ a = b := by
  simp only [quote, List.cons_append, List.append_assoc, List.nil_append, List.cons.injEq,
    true_and] at h
  have hread := readText?_quote s a
  rw [h, readText?_quote] at hread
  simpa [eq_comm] using hread

/-! ## Numbers -/

/-- The characters that numbers are written with. -/
def isNumeral (c : Char) : Bool := c.isDigit || c = '-' || c = '+' || c = '.' || c = 'e'

/-- The text does not go on with a character that numbers are written with. -/
def EndsNumber (rest : List Char) : Prop := ∀ c ∈ rest.head?, isNumeral c = false

theorem isNumeral_of_isDigit {c : Char} (h : c.isDigit = true) : isNumeral c = true := by
  simp [isNumeral, h]

theorem isDigit_of_mem_toDigits {n : Nat} {c : Char} (h : c ∈ Nat.toDigits 10 n) :
    c.isDigit = true :=
  Nat.isDigit_of_mem_toDigits (by decide) (by decide) h

theorem isNumeral_of_mem_intChars {n : Int} {c : Char} (h : c ∈ intChars n) :
    isNumeral c = true := by
  rw [intChars] at h
  split at h
  · rcases List.mem_cons.1 h with rfl | h
    · rfl
    · exact isNumeral_of_isDigit (isDigit_of_mem_toDigits h)
  · exact isNumeral_of_isDigit (isDigit_of_mem_toDigits h)

/-- Every digit of the shortest decimal of a number is one. -/
theorem isDigit_of_mem_shortest {x : Float} {c : Char} (h : c ∈ (Decimal.shortest x).digits) :
    c.isDigit = true := by
  have hgrid {d : Nat} {k : Int} (h : c ∈ (Decimal.Scientific.ofGrid d k).digits) :
      c.isDigit = true := by
    rw [Decimal.Scientific.ofGrid, List.mem_reverse] at h
    exact isDigit_of_mem_toDigits (List.mem_reverse.1 ((List.dropWhile_sublist _).subset h))
  have hscan (count : Nat) (k : Int) (h : c ∈ (Decimal.scan x k count).digits) :
      c.isDigit = true := by
    induction count generalizing k with
    | zero => exact hgrid h
    | succ count ih =>
      rw [Decimal.scan] at h
      split at h
      · exact hgrid h
      · exact ih _ h
  exact hscan _ _ h

theorem isNumeral_of_mem_positional {digits : List Char} {e : Int} {c : Char}
    (hdigits : ∀ c ∈ digits, c.isDigit = true) (h : c ∈ Decimal.positional digits e) :
    isNumeral c = true := by
  have hzero {n : Nat} (h : c ∈ List.replicate n '0') : isNumeral c = true := by
    rw [List.eq_of_mem_replicate h]
    rfl
  rw [Decimal.positional] at h
  split at h
  · rw [List.mem_cons, List.mem_cons, List.mem_append] at h
    rcases h with rfl | rfl | h | h
    · rfl
    · rfl
    · exact hzero h
    · exact isNumeral_of_isDigit (hdigits c h)
  · rw [List.mem_append, List.mem_append, List.mem_cons] at h
    rcases h with (h | h) | rfl | h
    · exact isNumeral_of_isDigit (hdigits c (List.mem_of_mem_take h))
    · exact hzero h
    · rfl
    · split at h
      · rw [List.mem_singleton.1 h]
        rfl
      · exact isNumeral_of_isDigit (hdigits c (List.mem_of_mem_drop h))

theorem isNumeral_of_mem_exponential {digits : List Char} {e : Int} {c : Char}
    (hdigits : ∀ c ∈ digits, c.isDigit = true) (h : c ∈ Decimal.exponential digits e) :
    isNumeral c = true := by
  have hmarks : ∀ c ∈ ['.', 'e', '-', '+'], isNumeral c = true := List.all_eq_true.1 rfl
  have hmem : c ∈ digits ∨ c ∈ Nat.toDigits 10 e.natAbs ∨ c ∈ ['.', 'e', '-', '+'] := by
    have hsign : (if e < 0 then '-' else '+') ∈ ['.', 'e', '-', '+'] := by
      split <;> decide
    rcases digits with _ | ⟨d, _ | ⟨f, rest⟩⟩ <;>
      simp only [Decimal.exponential, List.mem_append, List.mem_cons] at h <;> grind
  rcases hmem with h | h | h
  · exact isNumeral_of_isDigit (hdigits c h)
  · exact isNumeral_of_isDigit (isDigit_of_mem_toDigits h)
  · exact hmarks c h

/-- The text of a float: its sign, and the text of its absolute value. -/
theorem floatChars_eq (layout : Decimal.Layout) (x : Float) :
    layout.floatChars x = (if Decimal.isNegative x then ['-'] else []) ++
      if Decimal.significand x = 0 then ['0', '.', '0'] else layout.chars (Decimal.shortest x) := by
  rw [Decimal.Layout.floatChars]
  by_cases hneg : Decimal.isNegative x
  · simp only [if_pos hneg, List.singleton_append]
  · simp only [if_neg hneg, List.nil_append]

theorem isNumeral_of_mem_floatChars {layout : Decimal.Layout} {x : Float} {c : Char}
    (h : c ∈ layout.floatChars x) : isNumeral c = true := by
  have hdigits : ∀ c ∈ (Decimal.shortest x).digits, c.isDigit = true :=
    fun c h => isDigit_of_mem_shortest h
  have hzero : ∀ c ∈ ['0', '.', '0'], isNumeral c = true := List.all_eq_true.1 rfl
  rw [floatChars_eq, List.mem_append] at h
  rcases h with h | h
  · split at h
    · rw [List.mem_singleton.1 h]
      rfl
    · exact absurd h List.not_mem_nil
  · split at h
    · exact hzero c h
    · rw [Decimal.Layout.chars] at h
      split at h
      · exact isNumeral_of_mem_positional hdigits h
      · exact isNumeral_of_mem_exponential hdigits h

theorem exists_mark_mem_chars (layout : Decimal.Layout) (d : Decimal.Scientific) :
    ∃ c ∈ layout.chars d, c = '.' ∨ c = 'e' := by
  rw [Decimal.Layout.chars]
  split
  · refine ⟨'.', ?_, .inl rfl⟩
    rw [Decimal.positional]
    split <;> simp
  · exact ⟨'e', by simp [Decimal.exponential], .inr rfl⟩

/-- The text of a float shows that it is one. -/
theorem exists_mark_mem_floatChars (layout : Decimal.Layout) (x : Float) :
    ∃ c ∈ layout.floatChars x, c = '.' ∨ c = 'e' := by
  rw [floatChars_eq]
  by_cases hzero : Decimal.significand x = 0
  · rw [if_pos hzero]
    exact ⟨'.', List.mem_append_right _ (by decide), .inl rfl⟩
  · rw [if_neg hzero]
    obtain ⟨c, hc, hmark⟩ := exists_mark_mem_chars layout (Decimal.shortest x)
    exact ⟨c, List.mem_append_right _ hc, hmark⟩

/-- The text of an integer does not. -/
theorem not_mark_of_mem_intChars {n : Int} {c : Char} (h : c ∈ intChars n) :
    ¬ (c = '.' ∨ c = 'e') := by
  have hdigit {m : Nat} (h : c ∈ Nat.toDigits 10 m) : ¬ (c = '.' ∨ c = 'e') := by
    have hisDigit := isDigit_of_mem_toDigits h
    rintro (rfl | rfl) <;> exact absurd hisDigit (by decide)
  rw [intChars] at h
  split at h
  · rcases List.mem_cons.1 h with rfl | h
    · decide
    · exact hdigit h
  · exact hdigit h

theorem toDigits_inj {m n : Nat} (h : Nat.toDigits 10 m = Nat.toDigits 10 n) : m = n := by
  rw [← Nat.ofDigitChars_ten_toDigits (n := m), h, Nat.ofDigitChars_ten_toDigits]

/-- Different integers are written differently. -/
theorem intChars_inj {m n : Int} (h : intChars m = intChars n) : m = n := by
  have hsign (k : Nat) : '-' ∉ Nat.toDigits 10 k := fun hk =>
    absurd (isDigit_of_mem_toDigits hk) (by decide)
  rw [intChars, intChars] at h
  split at h <;> split at h
  · have := toDigits_inj (List.cons.inj h).2
    omega
  · exact absurd (h ▸ List.mem_cons_self) (hsign n.natAbs)
  · exact absurd (h ▸ List.mem_cons_self) (hsign m.natAbs)
  · have := toDigits_inj h
    omega

theorem isNumeral_of_mem_numberChars {n : JsonNumber} {c : Char} (h : c ∈ numberChars n) :
    isNumeral c = true := by
  cases n with
  | int n => exact isNumeral_of_mem_intChars h
  | float x _ => exact isNumeral_of_mem_floatChars h

/-- A number ends where no further numeral stands. -/
theorem takeWhile_numberChars {n : JsonNumber} {rest : List Char} (hrest : EndsNumber rest) :
    (numberChars n ++ rest).takeWhile isNumeral = numberChars n := by
  rw [List.takeWhile_append_of_pos fun c hc => isNumeral_of_mem_numberChars hc]
  cases rest with
  | nil => simp
  | cons c rest =>
    have hc : isNumeral c = false := hrest c rfl
    simp [hc]

/-- Floats of the one list are told apart from floats of the other by their text. -/
def TellsApart (xs ys : List Float) : Prop :=
  ∀ x ∈ xs, ∀ y ∈ ys, numberLayout.floatChars x = numberLayout.floatChars y → x = y

instance (xs ys : List Float) : Decidable (TellsApart xs ys) :=
  inferInstanceAs (Decidable (∀ x ∈ xs, ∀ y ∈ ys, _))

theorem TellsApart.mono {xs ys xs' ys' : List Float} (h : TellsApart xs' ys') (hxs : xs ⊆ xs')
    (hys : ys ⊆ ys') : TellsApart xs ys :=
  fun x hx y hy => h x (hxs hx) y (hys hy)

/-- The float that a number is, if it is one. -/
def numberFloats : JsonNumber → List Float
  | .int _ => []
  | .float x _ => [x]

theorem numberChars_inj {m n : JsonNumber} (htell : TellsApart (numberFloats m) (numberFloats n))
    (h : numberChars m = numberChars n) : m = n := by
  cases m with
  | int m =>
    cases n with
    | int n => rw [intChars_inj h]
    | float y hy =>
      obtain ⟨c, hc, hmark⟩ := exists_mark_mem_floatChars numberLayout y
      have h : intChars m = numberLayout.floatChars y := h
      exact absurd hmark (not_mark_of_mem_intChars (h ▸ hc))
  | float x hx =>
    cases n with
    | int n =>
      obtain ⟨c, hc, hmark⟩ := exists_mark_mem_floatChars numberLayout x
      have h : numberLayout.floatChars x = intChars n := h
      exact absurd hmark (not_mark_of_mem_intChars (h ▸ hc))
    | float y hy =>
      obtain rfl := htell x List.mem_cons_self y List.mem_cons_self h
      rfl

theorem numberChars_append_inj {m n : JsonNumber} {a b : List Char}
    (htell : TellsApart (numberFloats m) (numberFloats n)) (ha : EndsNumber a) (hb : EndsNumber b)
    (h : numberChars m ++ a = numberChars n ++ b) : m = n ∧ a = b := by
  have htake : numberChars m = numberChars n := by
    rw [← takeWhile_numberChars ha, h, takeWhile_numberChars hb]
  rw [htake] at h
  exact ⟨numberChars_inj htell htake, List.append_cancel_left h⟩

/-! ## Values -/

mutual

/-- The floats in a value. -/
def floats : Json → List Float
  | num n => numberFloats n
  | arr items => itemsFloats items
  | obj fields => fieldsFloats fields
  | _ => []

/-- The floats in the items of an array. -/
def itemsFloats : List Json → List Float
  | [] => []
  | item :: items => floats item ++ itemsFloats items

/-- The floats in the fields of an object. -/
def fieldsFloats : List (String × Json) → List Float
  | [] => []
  | (_, value) :: fields => floats value ++ fieldsFloats fields

end

/-- What kind of value a value is. -/
inductive Kind where
  | null
  | bool
  | num
  | str
  | arr
  | obj

/-- The kind of a value. -/
def kind : Json → Kind
  | null => .null
  | bool _ => .bool
  | num _ => .num
  | str _ => .str
  | arr _ => .arr
  | obj _ => .obj

/-- The kind of the values whose text starts with a character. -/
def Kind.ofLead? (c : Char) : Option Kind :=
  if c = 'n' then some .null
  else if c = 't' ∨ c = 'f' then some .bool
  else if c = '"' then some .str
  else if c = '[' then some .arr
  else if c = '\x7b' then some .obj
  else if isNumeral c then some .num
  else none

theorem intChars_ne_nil (n : Int) : intChars n ≠ [] := by
  rw [intChars]
  split
  · exact List.cons_ne_nil _ _
  · exact Nat.toDigits_ne_nil

theorem numberChars_ne_nil (n : JsonNumber) : numberChars n ≠ [] := by
  cases n with
  | int n => exact intChars_ne_nil n
  | float x _ =>
    obtain ⟨c, hc, -⟩ := exists_mark_mem_floatChars numberLayout x
    exact List.ne_nil_of_mem hc

theorem ofLead?_of_isNumeral {c : Char} (h : isNumeral c = true) : Kind.ofLead? c = some .num := by
  have hne {d : Char} (hd : isNumeral d = false) : c ≠ d := by
    rintro rfl
    simp [h] at hd
  simp only [Kind.ofLead?, hne (d := 'n') rfl, hne (d := 't') rfl, hne (d := 'f') rfl,
    hne (d := '"') rfl, hne (d := '[') rfl, hne (d := '\x7b') rfl, h, or_self, if_false, if_true]

/-- **The first character of a text shows what kind of value it is of.** -/
theorem exists_lead (v : Json) :
    ∃ c rest, v.chars = c :: rest ∧ Kind.ofLead? c = some v.kind := by
  match v with
  | null => exact ⟨_, _, by rw [chars], rfl⟩
  | bool true => exact ⟨_, _, by rw [chars], rfl⟩
  | bool false => exact ⟨_, _, by rw [chars], rfl⟩
  | str s => exact ⟨_, _, by rw [chars, quote], rfl⟩
  | arr [] => exact ⟨_, _, by rw [chars], rfl⟩
  | arr (_ :: _) => exact ⟨_, _, by rw [chars], rfl⟩
  | obj [] => exact ⟨_, _, by rw [chars], rfl⟩
  | obj (_ :: _) => exact ⟨_, _, by rw [chars], rfl⟩
  | num n =>
    obtain ⟨c, rest, hn⟩ := List.exists_cons_of_ne_nil (numberChars_ne_nil n)
    have hc : isNumeral c = true := isNumeral_of_mem_numberChars (hn ▸ List.mem_cons_self)
    exact ⟨c, rest, by rw [chars, hn], ofLead?_of_isNumeral hc⟩

theorem kind_eq_of_append {v w : Json} {a b : List Char} (h : v.chars ++ a = w.chars ++ b) :
    v.kind = w.kind := by
  obtain ⟨c, rest, hv, hkind⟩ := exists_lead v
  obtain ⟨c', rest', hw, hkind'⟩ := exists_lead w
  rw [hv, hw, List.cons_append, List.cons_append] at h
  rw [(List.cons.inj h).1, hkind'] at hkind
  exact (Option.some.inj hkind).symm

theorem endsNumber_cons {c : Char} (h : isNumeral c = false) (rest : List Char) :
    EndsNumber (c :: rest) := by
  intro d hd
  obtain rfl : c = d := Option.some.inj hd
  exact h

theorem endsNumber_itemsChars (items : List Json) (rest : List Char) :
    EndsNumber (itemsChars items ++ rest) := by
  cases items with
  | nil => exact endsNumber_cons (by decide) _
  | cons item items => exact endsNumber_cons (by decide) _

theorem endsNumber_fieldsChars (fields : List (String × Json)) (rest : List Char) :
    EndsNumber (fieldsChars fields ++ rest) := by
  match fields with
  | [] => exact endsNumber_cons (by decide) _
  | (key, value) :: fields => exact endsNumber_cons (by decide) _

/-- No value starts as an array ends. -/
theorem chars_append_ne_bracket (v : Json) (a b : List Char) : v.chars ++ a ≠ ']' :: b := by
  obtain ⟨c, rest, hv, hkind⟩ := exists_lead v
  rw [hv, List.cons_append]
  intro h
  rw [(List.cons.inj h).1] at hkind
  exact absurd hkind (by simp [Kind.ofLead?, isNumeral])

/-- The text of an array is that of its items behind the opening bracket. -/
theorem itemsChars_eq_of_chars_eq {xs ys : List Json} {a b : List Char}
    (h : (arr xs).chars ++ a = (arr ys).chars ++ b) : itemsChars xs ++ a = itemsChars ys ++ b := by
  cases xs <;> cases ys <;>
    simp only [chars, itemsChars, List.cons_append, List.append_assoc, List.nil_append,
      List.cons.injEq, true_and] at h ⊢
  · exact h
  · exact absurd h.symm (chars_append_ne_bracket _ _ _)
  · exact absurd h (chars_append_ne_bracket _ _ _)
  · exact h

/-- The text of an object is that of its fields behind the opening brace. -/
theorem fieldsChars_eq_of_chars_eq {xs ys : List (String × Json)} {a b : List Char}
    (h : (obj xs).chars ++ a = (obj ys).chars ++ b) :
    fieldsChars xs ++ a = fieldsChars ys ++ b := by
  cases xs <;> cases ys <;>
    simp_all [chars, fieldsChars, quote]

mutual

/-- **The text of a value is split off a longer text in one way only**, unless the rest goes on like
a number. -/
theorem chars_append_inj (v w : Json) {a b : List Char} (htell : TellsApart v.floats w.floats)
    (ha : EndsNumber a) (hb : EndsNumber b) (h : v.chars ++ a = w.chars ++ b) : v = w ∧ a = b := by
  match v, w, kind_eq_of_append h with
  | null, null, _ => exact ⟨rfl, List.append_cancel_left h⟩
  | bool x, bool y, _ => cases x <;> cases y <;> simp_all [chars]
  | num m, num n, _ =>
    rw [chars, chars] at h
    obtain ⟨rfl, rfl⟩ := numberChars_append_inj htell ha hb h
    exact ⟨rfl, rfl⟩
  | str s, str t, _ =>
    rw [chars, chars] at h
    obtain ⟨rfl, rfl⟩ := quote_append_inj h
    exact ⟨rfl, rfl⟩
  | arr xs, arr ys, _ =>
    obtain ⟨rfl, rfl⟩ := itemsChars_append_inj xs ys htell (itemsChars_eq_of_chars_eq h)
    exact ⟨rfl, rfl⟩
  | obj xs, obj ys, _ =>
    obtain ⟨rfl, rfl⟩ := fieldsChars_append_inj xs ys htell (fieldsChars_eq_of_chars_eq h)
    exact ⟨rfl, rfl⟩

theorem itemsChars_append_inj (xs ys : List Json) {a b : List Char}
    (htell : TellsApart (itemsFloats xs) (itemsFloats ys))
    (h : itemsChars xs ++ a = itemsChars ys ++ b) : xs = ys ∧ a = b := by
  match xs, ys with
  | [], [] => exact ⟨rfl, List.append_cancel_left h⟩
  | x :: xs, y :: ys =>
    simp only [itemsChars, List.cons_append, List.append_assoc, List.cons.injEq, true_and] at h
    rw [itemsFloats, itemsFloats] at htell
    obtain ⟨rfl, hitems⟩ := chars_append_inj x y
      (htell.mono (List.subset_append_left _ _) (List.subset_append_left _ _))
      (endsNumber_itemsChars xs a) (endsNumber_itemsChars ys b) h
    obtain ⟨rfl, rfl⟩ := itemsChars_append_inj xs ys
      (htell.mono (List.subset_append_right _ _) (List.subset_append_right _ _)) hitems
    exact ⟨rfl, rfl⟩
  | [], y :: ys => simp [itemsChars] at h
  | x :: xs, [] => simp [itemsChars] at h

theorem fieldsChars_append_inj (xs ys : List (String × Json)) {a b : List Char}
    (htell : TellsApart (fieldsFloats xs) (fieldsFloats ys))
    (h : fieldsChars xs ++ a = fieldsChars ys ++ b) : xs = ys ∧ a = b := by
  match xs, ys with
  | [], [] => exact ⟨rfl, List.append_cancel_left h⟩
  | (k, x) :: xs, (l, y) :: ys =>
    simp only [fieldsChars, List.cons_append, List.append_assoc, List.cons.injEq, true_and] at h
    rw [fieldsFloats, fieldsFloats] at htell
    obtain ⟨rfl, hvalue⟩ := quote_append_inj h
    obtain ⟨rfl, hfields⟩ := chars_append_inj x y
      (htell.mono (List.subset_append_left _ _) (List.subset_append_left _ _))
      (endsNumber_fieldsChars xs a) (endsNumber_fieldsChars ys b) (List.cons.inj hvalue).2
    obtain ⟨rfl, rfl⟩ := fieldsChars_append_inj xs ys
      (htell.mono (List.subset_append_right _ _) (List.subset_append_right _ _)) hfields
    exact ⟨rfl, rfl⟩
  | [], (l, y) :: ys => simp [fieldsChars] at h
  | (k, x) :: xs, [] => simp [fieldsChars] at h

end

/-- **Different values have different canonical texts.** -/
theorem chars_inj {v w : Json} (htell : TellsApart v.floats w.floats) :
    v.chars = w.chars ↔ v = w := by
  refine ⟨fun h => ?_, congrArg chars⟩
  have hends : EndsNumber [] := fun c hc => by simp at hc
  have hsplit := chars_append_inj v w (a := []) (b := []) htell hends hends
  rw [List.append_nil, List.append_nil] at hsplit
  exact (hsplit h).1

/-! ## Bytes and checksums -/

theorem byteArray_toList_loop (bytes : ByteArray) (i : Nat) (acc : List UInt8) :
    ByteArray.toList.loop bytes i acc = acc.reverse ++ bytes.data.toList.drop i := by
  fun_induction ByteArray.toList.loop bytes i acc with
  | case1 i acc hi ih =>
    have hget : bytes.get! i = bytes.data[i] := getElem!_pos bytes.data i hi
    have hdrop : bytes.data.toList.drop i = bytes.data[i] :: bytes.data.toList.drop (i + 1) :=
      List.drop_eq_getElem_cons (i := i) (by simpa using hi)
    rw [ih, hdrop, hget]
    simp
  | case2 i acc hi =>
    rw [List.drop_eq_nil_of_le (by simpa using Nat.le_of_not_lt hi), List.append_nil]

theorem byteArray_toList_inj {a b : ByteArray} : a.toList = b.toList ↔ a = b := by
  rw [ByteArray.toList, ByteArray.toList, byteArray_toList_loop, byteArray_toList_loop,
    ByteArray.ext_iff, ← Array.toList_inj]
  rfl

/-- **Different values have different canonical bytes.** -/
theorem canonicalBytes_inj {v w : Json} (htell : TellsApart v.floats w.floats) :
    v.canonicalBytes = w.canonicalBytes ↔ v = w := by
  rw [canonicalBytes, canonicalBytes, byteArray_toList_inj, String.toUTF8_eq_toByteArray,
    String.toUTF8_eq_toByteArray, String.toByteArray_inj, text, text, String.ofList_inj,
    chars_inj htell]

theorem hexByte_inj {a b : UInt8} (h : hexByte a = hexByte b) : a = b := by
  have hread (c : UInt8) : Text.ofHexDigits? (hexByte c) = some c.toNat := by
    rw [hexByte, Text.ofHexDigits?_hexDigits]
    exact congrArg some (Nat.mod_eq_of_lt c.toNat_lt)
  have hnat := hread a
  rw [h, hread] at hnat
  exact UInt8.toNat_inj.1 (Option.some.inj hnat).symm

theorem flatMap_hexByte_inj {as bs : List UInt8} (h : as.flatMap hexByte = bs.flatMap hexByte) :
    as = bs := by
  have hlength (c : UInt8) : (hexByte c).length = 2 := Text.length_hexDigits 2 c.toNat
  have hne (c : UInt8) (cs : List UInt8) : (c :: cs).flatMap hexByte ≠ [] := by
    rw [List.flatMap_cons]
    exact List.append_ne_nil_of_left_ne_nil (List.ne_nil_of_length_pos (by rw [hlength]; omega)) _
  induction as generalizing bs with
  | nil =>
    cases bs with
    | nil => rfl
    | cons b bs => exact absurd h.symm (hne b bs)
  | cons a as ih =>
    cases bs with
    | nil => exact absurd h (hne a as)
    | cons b bs =>
      rw [List.flatMap_cons, List.flatMap_cons] at h
      obtain ⟨hhead, htail⟩ := List.append_inj h (by rw [hlength, hlength])
      rw [hexByte_inj hhead, ih htail]

/-- Checksums are equal exactly if the hashes are. -/
theorem checksum_eq_iff {v w : Json} :
    v.checksum = w.checksum ↔
      Checksum.sha256 v.canonicalBytes = Checksum.sha256 w.canonicalBytes := by
  rw [checksum, checksum, String.ofList_inj]
  exact ⟨flatMap_hexByte_inj, congrArg _⟩

/-- **Different values have different checksums**, unless the hashes of their texts collide. -/
theorem checksum_inj {v w : Json} (htell : TellsApart v.floats w.floats)
    (hsha : Checksum.sha256 v.canonicalBytes = Checksum.sha256 w.canonicalBytes →
      v.canonicalBytes = w.canonicalBytes) :
    v.checksum = w.checksum ↔ v = w := by
  rw [checksum_eq_iff, ← canonicalBytes_inj htell]
  exact ⟨hsha, congrArg Checksum.sha256⟩

end Json

end Switchyard

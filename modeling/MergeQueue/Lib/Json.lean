import Mathlib.Data.Int.Basic
import Mathlib.Tactic.SplitIfs

/-!
# Compact JSON texts

The text of a JSON value without blanks, with only the escapes that strings
need.  A text ends where its value ends: no text is the beginning of another
text that goes on with a separator, so the text determines the value.
-/

inductive Json
  | null
  | bool (b : Bool)
  | num (n : ℤ)
  | str (s : String)
  | arr (xs : List Json)
  | obj (fields : List (String × Json))

namespace Json

/-! ## The text -/

def escape (c : Char) : List Char :=
  if c = '\\' then ['\\', '\\']
  else if c = '"' then ['\\', '"']
  else if c = '\n' then ['\\', 'n']
  else if c = '\r' then ['\\', 'r']
  else if c = '\t' then ['\\', 't']
  else if c = '\x0c' then ['\\', 'f']
  else if c = '\x08' then ['\\', 'b']
  else if c.toNat < 32 then
    ['\\', 'u', '0', '0', (c.toNat / 16).digitChar, (c.toNat % 16).digitChar]
  else [c]

def quote (s : String) : List Char :=
  '"' :: (s.toList.flatMap escape ++ ['"'])

def digits : ℤ → List Char
  | .ofNat n => Nat.toDigits 10 n
  | .negSucc n => '-' :: Nat.toDigits 10 (n + 1)

mutual

def chars : Json → List Char
  | .null => ['n', 'u', 'l', 'l']
  | .bool true => ['t', 'r', 'u', 'e']
  | .bool false => ['f', 'a', 'l', 's', 'e']
  | .num n => digits n
  | .str s => quote s
  | .arr [] => ['[', ']']
  | .arr (x :: xs) => '[' :: (x.chars ++ charsRest xs)
  | .obj [] => ['{', '}']
  | .obj ((k, v) :: fs) => '{' :: (quote k ++ ':' :: (v.chars ++ charsFields fs))

def charsRest : List Json → List Char
  | [] => [']']
  | x :: xs => ',' :: (x.chars ++ charsRest xs)

def charsFields : List (String × Json) → List Char
  | [] => ['}']
  | (k, v) :: fs => ',' :: (quote k ++ ':' :: (v.chars ++ charsFields fs))

end

def render (v : Json) : String := String.ofList v.chars

/-! ## Strings -/

/-- Reads back the first character of an escaped text. -/
def unescape : List Char → Option (Char × List Char)
  | '\\' :: '\\' :: s => some ('\\', s)
  | '\\' :: '"' :: s => some ('"', s)
  | '\\' :: 'n' :: s => some ('\n', s)
  | '\\' :: 'r' :: s => some ('\r', s)
  | '\\' :: 't' :: s => some ('\t', s)
  | '\\' :: 'f' :: s => some ('\x0c', s)
  | '\\' :: 'b' :: s => some ('\x08', s)
  | '\\' :: 'u' :: '0' :: '0' :: a :: b :: s =>
      some (Char.ofNat (16 * hexValue a + hexValue b), s)
  | c :: s => some (c, s)
  | [] => none
where
  hexValue (c : Char) : ℕ := if c.toNat < 58 then c.toNat - 48 else c.toNat - 87

theorem hexValue_digitChar : ∀ n < 16, unescape.hexValue n.digitChar = n := by
  decide

theorem unescape_escape (c : Char) (s : List Char) : unescape (escape c ++ s) = some (c, s) := by
  unfold escape
  split_ifs with h₁ h₂ h₃ h₄ h₅ h₆ h₇ h₈
  · rw [h₁]; rfl
  · rw [h₂]; rfl
  · rw [h₃]; rfl
  · rw [h₄]; rfl
  · rw [h₅]; rfl
  · rw [h₆]; rfl
  · rw [h₇]; rfl
  · have hvalue : 16 * unescape.hexValue (c.toNat / 16).digitChar +
        unescape.hexValue (c.toNat % 16).digitChar = c.toNat := by
      rw [hexValue_digitChar _ (by omega), hexValue_digitChar _ (by omega)]
      omega
    simp only [List.cons_append, List.nil_append, unescape, hvalue, Char.ofNat_toNat]
  · simp [unescape, h₁]

theorem escape_append_inj {c d : Char} {s t : List Char} (h : escape c ++ s = escape d ++ t) :
    c = d ∧ s = t := by
  have hread := congrArg unescape h
  rw [unescape_escape, unescape_escape] at hread
  simpa using hread

theorem escape_append_ne_quote (c : Char) (s t : List Char) : escape c ++ s ≠ '"' :: t := by
  by_cases hquote : c = '"'
  · simp [hquote, escape]
  · unfold escape
    split_ifs <;> simp [hquote]

theorem flatMap_escape_append_inj {cs ds : List Char} {s t : List Char}
    (h : cs.flatMap escape ++ '"' :: s = ds.flatMap escape ++ '"' :: t) : cs = ds ∧ s = t := by
  induction cs generalizing ds with
  | nil =>
      cases ds with
      | nil => simpa using h
      | cons d ds =>
          rw [List.flatMap_cons, List.append_assoc] at h
          exact absurd h.symm (escape_append_ne_quote d _ _)
  | cons c cs ih =>
      cases ds with
      | nil =>
          rw [List.flatMap_cons, List.append_assoc] at h
          exact absurd h (escape_append_ne_quote c _ _)
      | cons d ds =>
          rw [List.flatMap_cons, List.flatMap_cons, List.append_assoc, List.append_assoc] at h
          obtain ⟨hcd, hrest⟩ := escape_append_inj h
          obtain ⟨hcs, hst⟩ := ih hrest
          exact ⟨by rw [hcd, hcs], hst⟩

theorem quote_append_inj {k l : String} {s t : List Char} (h : quote k ++ s = quote l ++ t) :
    k = l ∧ s = t := by
  have hbody : k.toList.flatMap escape ++ '"' :: s = l.toList.flatMap escape ++ '"' :: t := by
    simpa [quote] using h
  obtain ⟨hkl, hst⟩ := flatMap_escape_append_inj hbody
  exact ⟨String.toList_injective hkl, hst⟩

/-! ## Numbers -/

/-- A text that a value can be followed by: the end, or no digit. -/
def Ends (s : List Char) : Prop := ∀ c ∈ s.head?, c.isDigit = false

theorem takeWhile_toDigits {n : ℕ} {s : List Char} (hs : Ends s) :
    (Nat.toDigits 10 n ++ s).takeWhile Char.isDigit = Nat.toDigits 10 n := by
  have hdigits : ∀ c ∈ Nat.toDigits 10 n, c.isDigit = true := fun c hc ↦
    Nat.isDigit_of_mem_toDigits (by omega) (by omega) hc
  rw [List.takeWhile_append_of_pos hdigits]
  cases s with
  | nil => simp
  | cons c s => rw [List.takeWhile_cons_of_neg (by simp [hs c rfl]), List.append_nil]

theorem toDigits_append_inj {m n : ℕ} {s t : List Char} (hs : Ends s) (ht : Ends t)
    (h : Nat.toDigits 10 m ++ s = Nat.toDigits 10 n ++ t) : m = n ∧ s = t := by
  have hdigits : Nat.toDigits 10 m = Nat.toDigits 10 n := by
    rw [← takeWhile_toDigits hs, h, takeWhile_toDigits ht]
  refine ⟨?_, ?_⟩
  · rw [← Nat.ofDigitChars_ten_toDigits (n := m), hdigits, Nat.ofDigitChars_ten_toDigits]
  · rw [hdigits] at h
    exact List.append_cancel_left h

theorem digits_head (n : ℤ) : ∃ c cs, digits n = c :: cs ∧ (c.isDigit = true ∨ c = '-') := by
  cases n with
  | ofNat n =>
      cases h : Nat.toDigits 10 n with
      | nil => exact absurd h Nat.toDigits_ne_nil
      | cons c cs =>
          refine ⟨c, cs, h, .inl ?_⟩
          exact Nat.isDigit_of_mem_toDigits (n := n) (b := 10) (by omega) (by omega) (by simp [h])
  | negSucc n => exact ⟨'-', _, rfl, .inr rfl⟩

theorem digits_append_inj {m n : ℤ} {s t : List Char} (hs : Ends s) (ht : Ends t)
    (h : digits m ++ s = digits n ++ t) : m = n ∧ s = t := by
  have hminus : ∀ k : ℕ, ∀ u v : List Char, Nat.toDigits 10 k ++ u ≠ '-' :: v := by
    intro k u v hkuv
    cases hk : Nat.toDigits 10 k with
    | nil => exact Nat.toDigits_ne_nil hk
    | cons c cs =>
        have hc : c.isDigit = true :=
          Nat.isDigit_of_mem_toDigits (n := k) (b := 10) (by omega) (by omega) (by simp [hk])
        rw [hk, List.cons_append] at hkuv
        rw [(List.cons.inj hkuv).1] at hc
        exact absurd hc (by decide)
  cases m with
  | ofNat m =>
      cases n with
      | ofNat n =>
          obtain ⟨hmn, hst⟩ := toDigits_append_inj hs ht h
          exact ⟨by rw [hmn], hst⟩
      | negSucc n => exact absurd h (hminus m _ _)
  | negSucc m =>
      cases n with
      | ofNat n => exact absurd h.symm (hminus n _ _)
      | negSucc n =>
          obtain ⟨hmn, hst⟩ := toDigits_append_inj hs ht (List.cons.inj h).2
          exact ⟨by rw [Nat.succ.inj hmn], hst⟩

/-! ## Values -/

/-- What the first character of a text tells about its value. -/
def sort (c : Char) : ℕ :=
  if c = 'n' then 0 else if c = 't' then 1 else if c = 'f' then 2 else if c = '"' then 3
  else if c = '[' then 4 else if c = '{' then 5 else if c = ']' then 7 else if c = '}' then 7
  else 6

def sortOf : Json → ℕ
  | .null => 0
  | .bool true => 1
  | .bool false => 2
  | .str _ => 3
  | .arr _ => 4
  | .obj _ => 5
  | .num _ => 6

theorem sortOf_ne (v : Json) : v.sortOf ≠ 7 := by
  match v with
  | .null | .bool true | .bool false | .num _ | .str _ | .arr _ | .obj _ => simp [sortOf]

theorem sort_digit {c : Char} (h : c.isDigit = true ∨ c = '-') : sort c = 6 := by
  have hne : ∀ d, d.isDigit = false ∧ d ≠ '-' → c ≠ d := by
    rintro d ⟨hd, hminus⟩ rfl
    rcases h with h | h
    · rw [hd] at h
      cases h
    · exact hminus h
  simp only [sort, if_neg (hne 'n' (by decide)), if_neg (hne 't' (by decide)),
    if_neg (hne 'f' (by decide)), if_neg (hne '"' (by decide)), if_neg (hne '[' (by decide)),
    if_neg (hne '{' (by decide)), if_neg (hne ']' (by decide)), if_neg (hne '}' (by decide))]

theorem chars_head (v : Json) : ∃ c cs, v.chars = c :: cs ∧ sort c = v.sortOf := by
  match v with
  | .null => exact ⟨_, _, by rw [chars], rfl⟩
  | .bool true => exact ⟨_, _, by rw [chars], rfl⟩
  | .bool false => exact ⟨_, _, by rw [chars], rfl⟩
  | .num n =>
      obtain ⟨c, cs, hn, hc⟩ := digits_head n
      exact ⟨c, cs, by rw [chars, hn], sort_digit hc⟩
  | .str s => exact ⟨_, _, by rw [chars, quote], rfl⟩
  | .arr [] => exact ⟨_, _, by rw [chars], rfl⟩
  | .arr (x :: xs) => exact ⟨_, _, by rw [chars], rfl⟩
  | .obj [] => exact ⟨_, _, by rw [chars], rfl⟩
  | .obj ((k, v) :: fs) => exact ⟨_, _, by rw [chars], rfl⟩

theorem sortOf_eq {v w : Json} {s t : List Char} (h : v.chars ++ s = w.chars ++ t) :
    v.sortOf = w.sortOf := by
  obtain ⟨c, cs, hv, hc⟩ := chars_head v
  obtain ⟨d, ds, hw, hd⟩ := chars_head w
  rw [hv, hw, List.cons_append, List.cons_append] at h
  rw [← hc, ← hd, (List.cons.inj h).1]

/-- No value starts with a bracket that closes. -/
theorem chars_append_ne_close (v : Json) {c : Char} (hc : sort c = 7) (s t : List Char) :
    v.chars ++ s ≠ c :: t := by
  intro h
  obtain ⟨d, ds, hv, hd⟩ := chars_head v
  rw [hv, List.cons_append] at h
  rw [(List.cons.inj h).1, hc] at hd
  exact v.sortOf_ne hd.symm

theorem ends_charsRest (xs : List Json) (s : List Char) : Ends (charsRest xs ++ s) := by
  cases xs <;> (rw [charsRest]; intro c hc; cases hc; decide)

theorem ends_charsFields (fs : List (String × Json)) (s : List Char) :
    Ends (charsFields fs ++ s) := by
  match fs with
  | [] => rw [charsFields]; intro c hc; cases hc; decide
  | (k, v) :: fs => rw [charsFields]; intro c hc; cases hc; decide

mutual

theorem chars_append_inj (v w : Json) {s t : List Char} (hs : Ends s) (ht : Ends t)
    (h : v.chars ++ s = w.chars ++ t) : v = w ∧ s = t := by
  match v, w, sortOf_eq h with
  | .null, .null, _ => simpa [chars] using h
  | .bool true, .bool true, _ => simpa [chars] using h
  | .bool false, .bool false, _ => simpa [chars] using h
  | .num m, .num n, _ =>
      simp only [chars] at h
      obtain ⟨hmn, hst⟩ := digits_append_inj hs ht h
      exact ⟨by rw [hmn], hst⟩
  | .str k, .str l, _ =>
      simp only [chars] at h
      obtain ⟨hkl, hst⟩ := quote_append_inj h
      exact ⟨by rw [hkl], hst⟩
  | .arr [], .arr [], _ => simpa [chars] using h
  | .arr [], .arr (y :: ys), _ =>
      simp only [chars, List.cons_append, List.append_assoc] at h
      exact absurd (List.cons.inj h).2.symm (chars_append_ne_close y (by decide) _ _)
  | .arr (x :: xs), .arr [], _ =>
      simp only [chars, List.cons_append, List.append_assoc] at h
      exact absurd (List.cons.inj h).2 (chars_append_ne_close x (by decide) _ _)
  | .arr (x :: xs), .arr (y :: ys), _ =>
      simp only [chars, List.cons_append, List.append_assoc] at h
      obtain ⟨hxy, hrest⟩ :=
        chars_append_inj x y (ends_charsRest _ _) (ends_charsRest _ _) (List.cons.inj h).2
      obtain ⟨hxs, hst⟩ := charsRest_append_inj xs ys hs ht hrest
      exact ⟨by rw [hxy, hxs], hst⟩
  | .obj [], .obj [], _ => simpa [chars] using h
  | .obj [], .obj ((l, w) :: gs), _ => simp [chars, quote] at h
  | .obj ((k, v) :: fs), .obj [], _ => simp [chars, quote] at h
  | .obj ((k, v) :: fs), .obj ((l, w) :: gs), _ =>
      simp only [chars, List.cons_append, List.append_assoc] at h
      obtain ⟨hkl, hvalue⟩ := quote_append_inj (List.cons.inj h).2
      obtain ⟨hvw, hrest⟩ :=
        chars_append_inj v w (ends_charsFields _ _) (ends_charsFields _ _) (List.cons.inj hvalue).2
      obtain ⟨hfs, hst⟩ := charsFields_append_inj fs gs hs ht hrest
      exact ⟨by rw [hkl, hvw, hfs], hst⟩

theorem charsRest_append_inj (xs ys : List Json) {s t : List Char} (hs : Ends s) (ht : Ends t)
    (h : charsRest xs ++ s = charsRest ys ++ t) : xs = ys ∧ s = t := by
  match xs, ys with
  | [], [] => simpa [charsRest] using h
  | [], y :: ys => simp [charsRest] at h
  | x :: xs, [] => simp [charsRest] at h
  | x :: xs, y :: ys =>
      simp only [charsRest, List.cons_append, List.append_assoc] at h
      obtain ⟨hxy, hrest⟩ :=
        chars_append_inj x y (ends_charsRest _ _) (ends_charsRest _ _) (List.cons.inj h).2
      obtain ⟨hxs, hst⟩ := charsRest_append_inj xs ys hs ht hrest
      exact ⟨by rw [hxy, hxs], hst⟩

theorem charsFields_append_inj (fs gs : List (String × Json)) {s t : List Char} (hs : Ends s)
    (ht : Ends t) (h : charsFields fs ++ s = charsFields gs ++ t) : fs = gs ∧ s = t := by
  match fs, gs with
  | [], [] => simpa [charsFields] using h
  | [], (l, w) :: gs => simp [charsFields] at h
  | (k, v) :: fs, [] => simp [charsFields] at h
  | (k, v) :: fs, (l, w) :: gs =>
      simp only [charsFields, List.cons_append, List.append_assoc] at h
      obtain ⟨hkl, hvalue⟩ := quote_append_inj (List.cons.inj h).2
      obtain ⟨hvw, hrest⟩ :=
        chars_append_inj v w (ends_charsFields _ _) (ends_charsFields _ _) (List.cons.inj hvalue).2
      obtain ⟨hfs, hst⟩ := charsFields_append_inj fs gs hs ht hrest
      exact ⟨by rw [hkl, hvw, hfs], hst⟩

end

/-- The text determines the value. -/
theorem render_injective : Function.Injective render := by
  intro v w h
  have hchars : v.chars = w.chars := String.ofList_injective h
  have hends : Ends [] := by simp [Ends]
  have happend : v.chars ++ [] = w.chars ++ [] := by rw [hchars]
  exact (chars_append_inj v w hends hends happend).1

end Json

import Mathlib.Data.Int.Basic
import Mathlib.Data.List.TakeWhile
import Mathlib.Tactic.SplitIfs

/-!
# Decoding JSON

`json.loads` of a Python string, which is a sequence of code points and may hold lone
surrogates.  The decoder takes any text; it refuses what is no JSON, integers with more
digits than the interpreter converts, and brackets nested deeper than its stack allows.
-/

namespace PyJson

/-! ## Strings -/

/-- A string, by its code points. -/
abbrev Str := List ℕ

def str (s : String) : Str := s.toList.map Char.toNat

/-- `str.isspace` of one character. -/
def isSpace (c : ℕ) : Bool :=
  decide (9 ≤ c ∧ c ≤ 13) || decide (28 ≤ c ∧ c ≤ 32) || decide (0x2000 ≤ c ∧ c ≤ 0x200A) ||
    [0x85, 0xA0, 0x1680, 0x2028, 0x2029, 0x202F, 0x205F, 0x3000].contains c

def strip (s : Str) : Str := ((s.dropWhile isSpace).reverse.dropWhile isSpace).reverse

/-! ## Values -/

/-- A decoded value.  A float is given by the text it is read from, and an object by its
members as they are written. -/
inductive Value
  | null
  | bool (b : Bool)
  | int (n : ℤ)
  | float (text : Str)
  | str (s : Str)
  | list (items : List Value)
  | dict (members : List (Str × Value))

/-- `dict.get`: of the members with one name the last is in the dictionary. -/
def get (name : Str) (members : List (Str × Value)) : Option Value :=
  (members.reverse.find? fun m ↦ m.1 = name).map Prod.snd

inductive DecodeError
  | malformed
  | tooManyDigits
  | tooDeep
  deriving DecidableEq, Repr

/-! ## Scalars -/

def isBlank (c : ℕ) : Bool := c = 32 || c = 9 || c = 10 || c = 13

def skipBlanks (text : Str) : Str := text.dropWhile isBlank

def hexDigit (c : ℕ) : Option ℕ :=
  if 48 ≤ c ∧ c ≤ 57 then some (c - 48)
  else if 97 ≤ c ∧ c ≤ 102 then some (c - 87)
  else if 65 ≤ c ∧ c ≤ 70 then some (c - 55)
  else none

def hexNumber (a b c d : ℕ) : Option ℕ := do
  let a ← hexDigit a
  let b ← hexDigit b
  let c ← hexDigit c
  let d ← hexDigit d
  return ((a * 16 + b) * 16 + c) * 16 + d

/-- The escapes of one character: `"`, `\`, `/`, `b`, `f`, `n`, `r` and `t`. -/
def escaped (c : ℕ) : Option ℕ :=
  [(34, 34), (92, 92), (47, 47), (98, 8), (102, 12), (110, 10), (114, 13), (116, 9)].lookup c

def isHigh (unit : ℕ) : Bool := 0xD800 ≤ unit && unit ≤ 0xDBFF

def isLow (unit : ℕ) : Bool := 0xDC00 ≤ unit && unit ≤ 0xDFFF

def join (high low : ℕ) : ℕ := 0x10000 + (high - 0xD800) * 0x400 + (low - 0xDC00)

def prepend (front : Str) : Except DecodeError (Str × Str) → Except DecodeError (Str × Str)
  | .ok (s, rest) => .ok (front ++ s, rest)
  | .error e => .error e

/-- The rest of a string after its opening quote.  `high` is a high surrogate that was
escaped just before; it makes one character with a low one that is escaped next. -/
def readString : Option ℕ → Str → Except DecodeError (Str × Str)
  | high, 34 :: rest => .ok (high.toList, rest)
  | high, 92 :: 117 :: a :: b :: c :: d :: rest =>
      match hexNumber a b c d, high with
      | none, _ => .error .malformed
      | some unit, some first =>
          if isLow unit then prepend [join first unit] (readString none rest)
          else if isHigh unit then prepend [first] (readString (some unit) rest)
          else prepend [first, unit] (readString none rest)
      | some unit, none =>
          if isHigh unit then readString (some unit) rest
          else prepend [unit] (readString none rest)
  | high, 92 :: c :: rest =>
      match escaped c with
      | some e => prepend (high.toList ++ [e]) (readString none rest)
      | none => .error .malformed
  | high, c :: rest =>
      if c < 32 then .error .malformed
      else prepend (high.toList ++ [c]) (readString none rest)
  | _, [] => .error .malformed

def isDigit (c : ℕ) : Bool := 48 ≤ c && c ≤ 57

/-- A point with digits after it. -/
def readFraction : Str → Str × Str
  | 46 :: rest =>
      if rest.takeWhile isDigit = [] then ([], 46 :: rest)
      else (46 :: rest.takeWhile isDigit, rest.dropWhile isDigit)
  | text => ([], text)

def readSign : Str → Str × Str
  | 43 :: rest => ([43], rest)
  | 45 :: rest => ([45], rest)
  | text => ([], text)

/-- `e` or `E` with digits after it, which may have a sign. -/
def readExponent : Str → Str × Str
  | e :: rest =>
      let (sign, digits) := readSign rest
      if (e = 101 ∨ e = 69) ∧ digits.takeWhile isDigit ≠ [] then
        (e :: sign ++ digits.takeWhile isDigit, digits.dropWhile isDigit)
      else ([], e :: rest)
  | [] => ([], [])

/-- The digits before the point: a zero, or digits that start with another one. -/
def readInteger : Str → Option (Str × Str)
  | 48 :: rest => some ([48], rest)
  | c :: rest =>
      if isDigit c then some (c :: rest.takeWhile isDigit, rest.dropWhile isDigit) else none
  | [] => none

/-- The most digits that `int` converts. -/
def maxDigits : ℕ := 4300

def intOf (negative : Bool) (digits : Str) : Except DecodeError Value :=
  if maxDigits < digits.length then .error .tooManyDigits
  else
    let n : ℕ := digits.foldl (fun n c ↦ 10 * n + (c - 48)) 0
    .ok (.int (if negative then -n else n))

def readNumber (text : Str) : Except DecodeError (Value × Str) :=
  let negative := text.head? = some 45
  match readInteger (if negative then text.tail else text) with
  | none => .error .malformed
  | some (integer, afterInteger) =>
      let (fraction, afterFraction) := readFraction afterInteger
      let (exponent, rest) := readExponent afterFraction
      if fraction = [] ∧ exponent = [] then do
        let n ← intOf negative integer
        return (n, rest)
      else .ok (.float ((if negative then [45] else []) ++ integer ++ fraction ++ exponent), rest)

def keywords : List (Str × Value) :=
  [(str "null", .null), (str "true", .bool true), (str "false", .bool false),
    (str "NaN", .float (str "NaN")), (str "Infinity", .float (str "Infinity")),
    (str "-Infinity", .float (str "-Infinity"))]

def readScalar (text : Str) : Except DecodeError (Value × Str) :=
  match text.head? with
  | some 34 => do
      let (s, rest) ← readString none text.tail
      return (.str s, rest)
  | _ =>
      match keywords.find? fun k ↦ k.1.isPrefixOf text with
      | some (word, value) => .ok (value, text.drop word.length)
      | none => readNumber text

/-! ## Arrays and objects -/

/-- Elements with commas between them, up to the bracket that closes them.  There are not
more of them than characters. -/
def readElements {α : Type} (read : Str → Except DecodeError (α × Str)) (close : ℕ) :
    ℕ → Str → Except DecodeError (List α × Str)
  | 0, _ => .error .malformed
  | fuel + 1, text => do
      let (element, rest) ← read text
      match skipBlanks rest with
      | c :: rest =>
          if c = close then return ([element], rest)
          else if c = 44 then
            let (elements, rest) ← readElements read close fuel (skipBlanks rest)
            return (element :: elements, rest)
          else .error .malformed
      | [] => .error .malformed

/-- What stands between two brackets, of which the first one was read. -/
def readBracket {α : Type} (read : Str → Except DecodeError (α × Str)) (close : ℕ) (text : Str) :
    Except DecodeError (List α × Str) :=
  let inside := skipBlanks text
  if inside.head? = some close then .ok ([], inside.tail)
  else readElements read close (inside.length + 1) inside

def readMember (read : Str → Except DecodeError (Value × Str)) (text : Str) :
    Except DecodeError ((Str × Value) × Str) :=
  match text with
  | 34 :: rest => do
      let (name, rest) ← readString none rest
      match skipBlanks rest with
      | 58 :: rest =>
          let (value, rest) ← read (skipBlanks rest)
          return ((name, value), rest)
      | _ => .error .malformed
  | _ => .error .malformed

/-- A value, with at most as many brackets around each other as the depth says. -/
def readValue (depth : ℕ) (text : Str) : Except DecodeError (Value × Str) :=
  match text.head?, depth with
  | some 123, 0 => .error .tooDeep
  | some 123, depth + 1 => do
      let (members, rest) ← readBracket (readMember (readValue depth)) 125 text.tail
      return (.dict members, rest)
  | some 91, 0 => .error .tooDeep
  | some 91, depth + 1 => do
      let (items, rest) ← readBracket (readValue depth) 93 text.tail
      return (.list items, rest)
  | _, _ => readScalar text

/-- `json.loads` of a string. -/
def loads (depth : ℕ) (raw : Str) : Except DecodeError Value :=
  if raw.head? = some 0xFEFF then .error .malformed
  else do
    let (value, rest) ← readValue depth (skipBlanks raw)
    if skipBlanks rest = [] then return value else .error .malformed

/-! ## What is read is taken off the text -/

/-- Every reading leaves a shorter text. -/
def Shrinks {α : Type} (read : Str → Except DecodeError (α × Str)) : Prop :=
  ∀ {text value rest}, read text = .ok (value, rest) → rest.length < text.length

theorem length_skipBlanks_le (text : Str) : (skipBlanks text).length ≤ text.length :=
  List.length_dropWhile_le isBlank text

theorem prepend_eq_ok {front s rest : Str} {r : Except DecodeError (Str × Str)}
    (h : prepend front r = .ok (s, rest)) : ∃ t, r = .ok (t, rest) := by
  cases r with
  | error e => cases h
  | ok out =>
      cases h
      exact ⟨_, rfl⟩

theorem readString_shrinks (high : Option ℕ) : Shrinks (readString high) := by
  intro text s rest h
  fun_induction readString high text generalizing s
  case case1 =>
    cases h
    exact Nat.lt_succ_self _
  case case2 | case9 | case10 | case12 => cases h
  case case6 ih =>
    have hlt := ih h
    simp only [List.length_cons]
    omega
  all_goals
    rename_i ih
    obtain ⟨t, ht⟩ := prepend_eq_ok h
    have hlt := ih ht
    simp only [List.length_cons]
    omega

theorem readFraction_le (text : Str) : (readFraction text).2.length ≤ text.length := by
  unfold readFraction
  split
  · have hle := List.length_dropWhile_le isDigit ‹Str›
    split_ifs
    · exact le_rfl
    · simp only [List.length_cons]
      omega
  · exact le_rfl

theorem readSign_le (text : Str) : (readSign text).2.length ≤ text.length := by
  unfold readSign
  split
  · exact Nat.le_succ _
  · exact Nat.le_succ _
  · exact le_rfl

theorem readExponent_le (text : Str) : (readExponent text).2.length ≤ text.length := by
  cases text with
  | nil => exact le_rfl
  | cons e rest =>
      have hsign := readSign_le rest
      have hle := List.length_dropWhile_le isDigit (readSign rest).2
      simp only [readExponent]
      split_ifs
      · simp only [List.length_cons]
        omega
      · exact le_rfl

theorem readInteger_shrinks {text digits rest : Str} (h : readInteger text = some (digits, rest)) :
    rest.length < text.length := by
  unfold readInteger at h
  split at h
  · cases h
    exact Nat.lt_succ_self _
  · split_ifs at h
    cases h
    have hle := List.length_dropWhile_le isDigit ‹Str›
    simp only [List.length_cons]
    omega
  · cases h

theorem readNumber_shrinks : Shrinks readNumber := by
  intro text value rest h
  have htail : (if text.head? = some 45 then text.tail else text).length ≤ text.length := by
    split_ifs
    · simp
    · exact le_rfl
  simp only [readNumber] at h
  split at h
  · cases h
  · next integer afterInteger hinteger =>
      have hlt := readInteger_shrinks hinteger
      have hfraction := readFraction_le afterInteger
      have hexponent := readExponent_le (readFraction afterInteger).2
      have hrest : rest = (readExponent (readFraction afterInteger).2).2 := by
        split_ifs at h
        · cases hint : intOf (decide (text.head? = some 45)) integer with
          | error e =>
              rw [hint] at h
              cases h
          | ok n =>
              rw [hint] at h
              cases h
              rfl
        · cases h
          rfl
        · cases h
          rfl
      rw [hrest]
      omega

theorem readScalar_shrinks : Shrinks readScalar := by
  intro text value rest h
  unfold readScalar at h
  split at h
  · next hquote =>
      cases hread : readString none text.tail with
      | error e =>
          rw [hread] at h
          cases h
      | ok out =>
          rw [hread] at h
          cases h
          have hlt := readString_shrinks none hread
          rw [List.length_tail] at hlt
          omega
  · split at h
    · next word value hword =>
        cases h
        have hprefix := List.find?_some hword
        have hmem := List.mem_of_find?_eq_some hword
        have hpos : 0 < word.length := by
          have hall : ∀ k ∈ keywords, 0 < k.1.length := by simp [keywords, str]
          exact hall _ hmem
        have hle : word.length ≤ text.length :=
          (List.isPrefixOf_iff_prefix.mp hprefix).length_le
        rw [List.length_drop]
        omega
    · exact readNumber_shrinks h

section Elements

variable {α : Type} {read : Str → Except DecodeError (α × Str)} {close : ℕ}

/-- One element was read; it was the last one, or the others were read after a comma. -/
theorem readElements_succ {fuel : ℕ} {text : Str} {elements : List α} {rest : Str}
    (h : readElements read close (fuel + 1) text = .ok (elements, rest)) :
    ∃ element afterElement, read text = .ok (element, afterElement) ∧
      ((skipBlanks afterElement = close :: rest ∧ elements = [element]) ∨
        ∃ afterComma others, skipBlanks afterElement = 44 :: afterComma ∧
          readElements read close fuel (skipBlanks afterComma) = .ok (others, rest) ∧
          elements = element :: others) := by
  rw [readElements] at h
  cases hread : read text with
  | error e =>
      rw [hread] at h
      cases h
  | ok out =>
      obtain ⟨element, afterElement⟩ := out
      refine ⟨element, afterElement, rfl, ?_⟩
      rw [hread] at h
      change (match skipBlanks afterElement with
        | c :: rest =>
            if c = close then Except.ok ([element], rest)
            else if c = 44 then do
              let (elements, rest) ← readElements read close fuel (skipBlanks rest)
              return (element :: elements, rest)
            else .error .malformed
        | [] => .error .malformed) = Except.ok (elements, rest) at h
      split at h
      · next c afterMark hmark =>
          split_ifs at h with hclose hcomma
          · cases h
            exact Or.inl ⟨by rw [hmark, hclose], rfl⟩
          · cases hmore : readElements read close fuel (skipBlanks afterMark) with
            | error e =>
                rw [hmore] at h
                cases h
            | ok out =>
                obtain ⟨others, afterOthers⟩ := out
                rw [hmore] at h
                cases h
                exact Or.inr ⟨afterMark, others, by rw [hmark, hcomma], hmore, rfl⟩
      · cases h

theorem readElements_shrinks (hread : Shrinks read) (fuel : ℕ) :
    Shrinks (readElements read close fuel) := by
  intro text elements rest h
  induction fuel generalizing text elements with
  | zero => cases h
  | succ fuel ih =>
      obtain ⟨element, afterElement, helement, hnext⟩ := readElements_succ h
      have hlt := hread helement
      have hle := length_skipBlanks_le afterElement
      rcases hnext with ⟨hclose, -⟩ | ⟨afterComma, others, hcomma, hmore, -⟩
      · rw [hclose, List.length_cons] at hle
        omega
      · have hrest := ih hmore
        have hblank := length_skipBlanks_le afterComma
        rw [hcomma, List.length_cons] at hle
        omega

theorem readBracket_le (hread : Shrinks read) {text : Str} {elements : List α} {rest : Str}
    (h : readBracket read close text = .ok (elements, rest)) : rest.length ≤ text.length := by
  have hle := length_skipBlanks_le text
  simp only [readBracket] at h
  split_ifs at h
  · cases h
    rw [List.length_tail]
    omega
  · have hlt := readElements_shrinks hread _ h
    omega

/-- There is fuel for every element: more of it changes nothing. -/
theorem readElements_fuel (hread : Shrinks read) {fuel fuel' : ℕ} {text : Str}
    (h : text.length < fuel) (h' : text.length < fuel') :
    readElements read close fuel text = readElements read close fuel' text := by
  induction fuel generalizing text fuel' with
  | zero => omega
  | succ fuel ih =>
      obtain ⟨more, rfl⟩ : ∃ more, fuel' = more + 1 := ⟨fuel' - 1, by omega⟩
      rw [readElements, readElements]
      cases helement : read text with
      | error e => rfl
      | ok out =>
          obtain ⟨element, afterElement⟩ := out
          have hlt := hread helement
          have hle := length_skipBlanks_le afterElement
          simp only [Except.bind, bind]
          split
          · next c afterMark hmark =>
              have hblank := length_skipBlanks_le afterMark
              rw [hmark, List.length_cons] at hle
              rw [ih (by omega) (show (skipBlanks afterMark).length < more by omega)]
          · rfl

end Elements

theorem readMember_eq_ok {read : Str → Except DecodeError (Value × Str)} {text : Str}
    {member : Str × Value} {rest : Str} (h : readMember read text = .ok (member, rest)) :
    ∃ afterQuote afterName afterColon, text = 34 :: afterQuote ∧
      readString none afterQuote = .ok (member.1, afterName) ∧
      skipBlanks afterName = 58 :: afterColon ∧
      read (skipBlanks afterColon) = .ok (member.2, rest) := by
  unfold readMember at h
  split at h
  · next afterQuote =>
      cases hname : readString none afterQuote with
      | error e =>
          rw [hname] at h
          cases h
      | ok out =>
          obtain ⟨name, afterName⟩ := out
          rw [hname] at h
          simp only [Except.bind, bind] at h
          split at h
          · next afterColon hcolon =>
              cases hvalue : read (skipBlanks afterColon) with
              | error e =>
                  rw [hvalue] at h
                  cases h
              | ok out =>
                  rw [hvalue] at h
                  cases h
                  exact ⟨afterQuote, afterName, afterColon, rfl, hname, hcolon, hvalue⟩
          · cases h
  · cases h

theorem readMember_shrinks {read : Str → Except DecodeError (Value × Str)} (hread : Shrinks read) :
    Shrinks (readMember read) := by
  intro text member rest h
  obtain ⟨afterQuote, afterName, afterColon, rfl, hname, hcolon, hvalue⟩ := readMember_eq_ok h
  have hstring := readString_shrinks none hname
  have hblank := length_skipBlanks_le afterName
  have hblank' := length_skipBlanks_le afterColon
  have hlt := hread hvalue
  rw [hcolon, List.length_cons] at hblank
  rw [List.length_cons]
  omega

/-- A text that begins with no bracket is a scalar. -/
theorem readValue_scalar {depth : ℕ} {text : Str} (hbrace : text.head? ≠ some 123)
    (hbracket : text.head? ≠ some 91) : readValue depth text = readScalar text := by
  rw [readValue]
  · exact fun hhead ↦ absurd hhead hbrace
  · exact fun _ hhead ↦ absurd hhead hbrace
  · exact fun hhead ↦ absurd hhead hbracket
  · exact fun _ hhead ↦ absurd hhead hbracket

theorem readValue_zero (text : Str) :
    readValue 0 text =
      if text.head? = some 123 ∨ text.head? = some 91 then .error .tooDeep
      else readScalar text := by
  by_cases hopen : text.head? = some 123 ∨ text.head? = some 91
  · rw [if_pos hopen]
    unfold readValue
    rcases hopen with hhead | hhead
    · rw [hhead]
      rfl
    · rw [hhead]
      rfl
  · rw [if_neg hopen, readValue_scalar fun hhead ↦ hopen (Or.inl hhead)]
    exact fun hhead ↦ hopen (Or.inr hhead)

theorem readValue_succ (depth : ℕ) (text : Str) :
    readValue (depth + 1) text =
      if text.head? = some 123 then
        (readBracket (readMember (readValue depth)) 125 text.tail).map
          fun out ↦ (.dict out.1, out.2)
      else if text.head? = some 91 then
        (readBracket (readValue depth) 93 text.tail).map fun out ↦ (.list out.1, out.2)
      else readScalar text := by
  by_cases hbrace : text.head? = some 123
  · rw [if_pos hbrace]
    unfold readValue
    rw [hbrace]
    change (do
      let (members, rest) ← readBracket (readMember (readValue depth)) 125 text.tail
      return (Value.dict members, rest)) = _
    cases readBracket (readMember (readValue depth)) 125 text.tail <;> rfl
  · rw [if_neg hbrace]
    by_cases hbracket : text.head? = some 91
    · rw [if_pos hbracket]
      unfold readValue
      rw [hbracket]
      change (do
        let (items, rest) ← readBracket (readValue depth) 93 text.tail
        return (Value.list items, rest)) = _
      cases readBracket (readValue depth) 93 text.tail <;> rfl
    · rw [if_neg hbracket, readValue_scalar hbrace hbracket]

theorem readValue_shrinks (depth : ℕ) : Shrinks (readValue depth) := by
  induction depth with
  | zero =>
      intro text value rest h
      rw [readValue_zero] at h
      split_ifs at h
      exact readScalar_shrinks h
  | succ depth ih =>
      intro text value rest h
      rw [readValue_succ] at h
      have hlt : ∀ {c : ℕ} {n : ℕ}, text.head? = some c → n ≤ text.tail.length →
          n < text.length := by
        intro c n hhead hle
        cases text with
        | nil => cases hhead
        | cons c' tail => exact Nat.lt_succ_of_le hle
      split_ifs at h with hbrace hbracket
      · cases hread : readBracket (readMember (readValue depth)) 125 text.tail with
        | error e =>
            rw [hread] at h
            cases h
        | ok out =>
            rw [hread] at h
            cases h
            exact hlt hbrace (readBracket_le (readMember_shrinks ih) hread)
      · cases hread : readBracket (readValue depth) 93 text.tail with
        | error e =>
            rw [hread] at h
            cases h
        | ok out =>
            rw [hread] at h
            cases h
            exact hlt hbracket (readBracket_le ih hread)
      · exact readScalar_shrinks h

/-! ## Brackets that are nested too deeply -/

theorem prepend_ne_tooDeep {front : Str} {r : Except DecodeError (Str × Str)}
    (h : r ≠ .error .tooDeep) : prepend front r ≠ .error .tooDeep := by
  cases r with
  | error e => exact h
  | ok out => exact fun hdeep ↦ by cases hdeep

theorem readString_ne_tooDeep (high : Option ℕ) (text : Str) :
    readString high text ≠ .error .tooDeep := by
  fun_induction readString high text
  case case1 | case2 | case9 | case10 | case12 => simp
  case case6 ih => exact ih
  all_goals
    rename_i ih
    exact prepend_ne_tooDeep ih

theorem readScalar_ne_tooDeep (text : Str) : readScalar text ≠ .error .tooDeep := by
  intro h
  unfold readScalar at h
  split at h
  · have hne := readString_ne_tooDeep none text.tail
    cases hread : readString none text.tail with
    | error e =>
        rw [hread] at h hne
        cases h
        exact hne rfl
    | ok out =>
        rw [hread] at h
        cases h
  · split at h
    · cases h
    · simp only [readNumber] at h
      split at h
      · cases h
      · split_ifs at h
        unfold intOf at h
        split_ifs at h <;> cases h

section Elements

variable {α : Type} {read : Str → Except DecodeError (α × Str)} {close : ℕ}

/-- Where the elements are nested too deeply, one of them is. -/
theorem exists_of_readElements_tooDeep (hread : Shrinks read) {fuel : ℕ} {text : Str}
    (h : readElements read close fuel text = .error .tooDeep) :
    ∃ part : Str, part.length ≤ text.length ∧ read part = .error .tooDeep := by
  induction fuel generalizing text with
  | zero => cases h
  | succ fuel ih =>
      rw [readElements] at h
      cases helement : read text with
      | error e =>
          rw [helement] at h
          cases h
          exact ⟨text, le_rfl, helement⟩
      | ok out =>
          obtain ⟨element, afterElement⟩ := out
          have hlt := hread helement
          have hle := length_skipBlanks_le afterElement
          rw [helement] at h
          simp only [Except.bind, bind] at h
          split at h
          · next c afterMark hmark =>
              have hblank := length_skipBlanks_le afterMark
              rw [hmark, List.length_cons] at hle
              split_ifs at h
              · cases h
              · cases hmore : readElements read close fuel (skipBlanks afterMark) with
                | error e =>
                    rw [hmore] at h
                    cases h
                    obtain ⟨part, hpart, hdeep⟩ := ih hmore
                    exact ⟨part, by omega, hdeep⟩
                | ok out =>
                    rw [hmore] at h
                    cases h
              · cases h
          · cases h

theorem exists_of_readBracket_tooDeep (hread : Shrinks read) {text : Str}
    (h : readBracket read close text = .error .tooDeep) :
    ∃ part : Str, part.length ≤ text.length ∧ read part = .error .tooDeep := by
  have hle := length_skipBlanks_le text
  simp only [readBracket] at h
  split_ifs at h
  obtain ⟨part, hpart, hdeep⟩ := exists_of_readElements_tooDeep hread h
  exact ⟨part, hpart.trans hle, hdeep⟩

end Elements

theorem exists_of_readMember_tooDeep {read : Str → Except DecodeError (Value × Str)} {text : Str}
    (h : readMember read text = .error .tooDeep) :
    ∃ part : Str, part.length ≤ text.length ∧ read part = .error .tooDeep := by
  unfold readMember at h
  split at h
  · next afterQuote =>
      have hne := readString_ne_tooDeep none afterQuote
      cases hname : readString none afterQuote with
      | error e =>
          rw [hname] at h hne
          cases h
          exact absurd rfl hne
      | ok out =>
          obtain ⟨name, afterName⟩ := out
          have hlt := readString_shrinks none hname
          have hle := length_skipBlanks_le afterName
          rw [hname] at h
          simp only [Except.bind, bind] at h
          split at h
          · next afterColon hcolon =>
              have hblank := length_skipBlanks_le afterColon
              rw [hcolon, List.length_cons] at hle
              refine ⟨skipBlanks afterColon, by simp only [List.length_cons]; omega, ?_⟩
              cases hvalue : read (skipBlanks afterColon) with
              | error e =>
                  rw [hvalue] at h
                  cases h
                  rfl
              | ok out =>
                  rw [hvalue] at h
                  cases h
          · cases h
  · cases h

/-- Brackets nest no deeper than the text is long. -/
theorem lt_of_readValue_tooDeep {depth : ℕ} {text : Str}
    (h : readValue depth text = .error .tooDeep) : depth < text.length := by
  induction depth generalizing text with
  | zero =>
      rw [readValue_zero] at h
      cases text with
      | nil => cases h
      | cons c tail => exact Nat.succ_pos _
  | succ depth ih =>
      rw [readValue_succ] at h
      have hlt : ∀ {c : ℕ} {part : Str}, text.head? = some c → part.length ≤ text.tail.length →
          readValue depth part = .error .tooDeep → depth + 1 < text.length := by
        intro c part hhead hle hdeep
        have hdepth := ih hdeep
        cases text with
        | nil => cases hhead
        | cons c' tail =>
            rw [List.tail_cons] at hle
            rw [List.length_cons]
            omega
      split_ifs at h with hbrace hbracket
      · cases hread : readBracket (readMember (readValue depth)) 125 text.tail with
        | error e =>
            rw [hread] at h
            cases h
            obtain ⟨part, hpart, hmember⟩ :=
              exists_of_readBracket_tooDeep (readMember_shrinks (readValue_shrinks depth)) hread
            obtain ⟨inner, hinner, hdeep⟩ := exists_of_readMember_tooDeep hmember
            exact hlt hbrace (hinner.trans hpart) hdeep
        | ok out =>
            rw [hread] at h
            cases h
      · cases hread : readBracket (readValue depth) 93 text.tail with
        | error e =>
            rw [hread] at h
            cases h
            obtain ⟨part, hpart, hdeep⟩ :=
              exists_of_readBracket_tooDeep (readValue_shrinks depth) hread
            exact hlt hbracket hpart hdeep
        | ok out =>
            rw [hread] at h
            cases h
      · exact absurd h (readScalar_ne_tooDeep text)

theorem lt_of_loads_tooDeep {depth : ℕ} {raw : Str} (h : loads depth raw = .error .tooDeep) :
    depth < raw.length := by
  unfold loads at h
  split_ifs at h
  · cases h
  · have hle := length_skipBlanks_le raw
    cases hread : readValue depth (skipBlanks raw) with
    | error e =>
        rw [hread] at h
        cases h
        have hlt := lt_of_readValue_tooDeep hread
        omega
    | ok out =>
        rw [hread] at h
        simp only [Except.bind, bind] at h
        split_ifs at h <;> cases h

end PyJson

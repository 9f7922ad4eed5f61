import Mathlib.Tactic.Common
import Mathlib.Data.Int.Basic

/-!
# Redacting the body of an error

Values under sensitive keys are replaced by a mark before a body is stored.  The recursion
goes through objects and through the objects of their lists; a list within a list is kept as
it is.
-/

namespace MergeQueue

/-- A parsed body.  A number that is no integer is kept as its text. -/
inductive BodyJson
  | null
  | bool (b : Bool)
  | int (n : ℤ)
  | float (text : String)
  | str (s : String)
  | arr (xs : List BodyJson)
  | obj (fields : List (String × BodyJson))

def sensitiveKeys : List String :=
  ["token", "tokens", "access_token", "refresh_token", "private_token", "password", "secret",
    "secret_value", "api_key", "api_token", "apikey", "auth", "authorization", "credential",
    "credentials", "key", "private_key", "secret_key", "token_expiry"]

/-- The lower case of the letters for which it is an ASCII letter; the Kelvin sign is one. -/
def lowerChar (c : Char) : Char := if c.toNat = 0x212A then 'k' else c.toLower

/-- `key.lower() in _SENSITIVE_KEYS`. -/
def sensitive (key : String) : Bool :=
  sensitiveKeys.contains (String.ofList (key.toList.map lowerChar))

example : sensitive "Private_Token" = true := by decide +kernel

namespace BodyJson

/-- What a redacted value is replaced by. -/
def mark : BodyJson := .str "***"

mutual

def redactDict : List (String × BodyJson) → List (String × BodyJson)
  | [] => []
  | (key, value) :: rest =>
      (key, if sensitive key then mark else redactValue value) :: redactDict rest

def redactValue : BodyJson → BodyJson
  | .obj fields => .obj (redactDict fields)
  | .arr xs => .arr (redactItems xs)
  | .null => .null
  | .bool b => .bool b
  | .int n => .int n
  | .float text => .float text
  | .str s => .str s

def redactItems : List BodyJson → List BodyJson
  | [] => []
  | item :: rest => redactItem item :: redactItems rest

/-- An item of a list is redacted if it is an object. -/
def redactItem : BodyJson → BodyJson
  | .obj fields => .obj (redactDict fields)
  | .arr xs => .arr xs
  | .null => .null
  | .bool b => .bool b
  | .int n => .int n
  | .float text => .float text
  | .str s => .str s

end

/-! ## What redaction is for -/

mutual

/-- Every value under a sensitive key is replaced, and nothing else. -/
def redacted : BodyJson → BodyJson
  | .arr xs => .arr (redactedItems xs)
  | .obj fields => .obj (redactedFields fields)
  | .null => .null
  | .bool b => .bool b
  | .int n => .int n
  | .float text => .float text
  | .str s => .str s

def redactedItems : List BodyJson → List BodyJson
  | [] => []
  | item :: rest => redacted item :: redactedItems rest

def redactedFields : List (String × BodyJson) → List (String × BodyJson)
  | [] => []
  | (key, value) :: rest =>
      (key, if sensitive key then mark else redacted value) :: redactedFields rest

end

mutual

/-- At no depth is there another value than the mark under a sensitive key. -/
def Clean : BodyJson → Prop
  | .arr xs => CleanItems xs
  | .obj fields => CleanFields fields
  | .null => True
  | .bool _ => True
  | .int _ => True
  | .float _ => True
  | .str _ => True

def CleanItems : List BodyJson → Prop
  | [] => True
  | item :: rest => Clean item ∧ CleanItems rest

def CleanFields : List (String × BodyJson) → Prop
  | [] => True
  | (key, value) :: rest =>
      (if sensitive key then value = mark else Clean value) ∧ CleanFields rest

end

mutual

theorem clean_redacted (body : BodyJson) : (redacted body).Clean := by
  cases body with
  | arr xs =>
      rw [redacted, Clean]
      exact cleanItems_redacted xs
  | obj fields =>
      rw [redacted, Clean]
      exact cleanFields_redacted fields
  | _ => simp [redacted, Clean]

theorem cleanItems_redacted (xs : List BodyJson) : CleanItems (redactedItems xs) := by
  cases xs with
  | nil => simp [redactedItems, CleanItems]
  | cons item rest =>
      rw [redactedItems, CleanItems]
      exact ⟨clean_redacted item, cleanItems_redacted rest⟩

theorem cleanFields_redacted (fields : List (String × BodyJson)) :
    CleanFields (redactedFields fields) := by
  match fields with
  | [] => simp [redactedFields, CleanFields]
  | (key, value) :: rest =>
      rw [redactedFields, CleanFields]
      refine ⟨?_, cleanFields_redacted rest⟩
      by_cases hkey : sensitive key = true
      · rw [if_pos hkey, if_pos hkey]
      · rw [if_neg hkey, if_neg hkey]
        exact clean_redacted value

end

mutual

theorem redacted_eq_self_iff (body : BodyJson) : redacted body = body ↔ body.Clean := by
  cases body with
  | arr xs =>
      rw [redacted, Clean, ← redactedItems_eq_self_iff xs]
      exact ⟨BodyJson.arr.inj, congrArg BodyJson.arr⟩
  | obj fields =>
      rw [redacted, Clean, ← redactedFields_eq_self_iff fields]
      exact ⟨BodyJson.obj.inj, congrArg BodyJson.obj⟩
  | _ => simp [redacted, Clean]

theorem redactedItems_eq_self_iff (xs : List BodyJson) :
    redactedItems xs = xs ↔ CleanItems xs := by
  cases xs with
  | nil => simp [redactedItems, CleanItems]
  | cons item rest =>
      rw [redactedItems, CleanItems, List.cons.injEq, redacted_eq_self_iff item,
        redactedItems_eq_self_iff rest]

theorem redactedFields_eq_self_iff (fields : List (String × BodyJson)) :
    redactedFields fields = fields ↔ CleanFields fields := by
  match fields with
  | [] => simp [redactedFields, CleanFields]
  | (key, value) :: rest =>
      rw [redactedFields, CleanFields, List.cons.injEq, Prod.mk.injEq,
        redactedFields_eq_self_iff rest]
      by_cases hkey : sensitive key = true
      · simp [hkey, eq_comm]
      · simp [hkey, redacted_eq_self_iff value]

end

/-! ## Where the recursion of the code reaches everything -/

mutual

/-- The lists that are directly within lists are clean, where they are not under a sensitive
key. -/
def NestedClean : List (String × BodyJson) → Prop
  | [] => True
  | (key, value) :: rest => (sensitive key = true ∨ NestedCleanValue value) ∧ NestedClean rest

def NestedCleanValue : BodyJson → Prop
  | .obj fields => NestedClean fields
  | .arr xs => NestedCleanItems xs
  | .null => True
  | .bool _ => True
  | .int _ => True
  | .float _ => True
  | .str _ => True

def NestedCleanItems : List BodyJson → Prop
  | [] => True
  | item :: rest => NestedCleanItem item ∧ NestedCleanItems rest

def NestedCleanItem : BodyJson → Prop
  | .obj fields => NestedClean fields
  | .arr xs => CleanItems xs
  | .null => True
  | .bool _ => True
  | .int _ => True
  | .float _ => True
  | .str _ => True

end

mutual

theorem redactDict_eq_iff (fields : List (String × BodyJson)) :
    redactDict fields = redactedFields fields ↔ NestedClean fields := by
  match fields with
  | [] => simp [redactDict, redactedFields, NestedClean]
  | (key, value) :: rest =>
      rw [redactDict, redactedFields, NestedClean, List.cons.injEq, Prod.mk.injEq,
        redactDict_eq_iff rest]
      by_cases hkey : sensitive key = true
      · simp [hkey]
      · simp [hkey, redactValue_eq_iff value]

theorem redactValue_eq_iff (value : BodyJson) :
    redactValue value = redacted value ↔ NestedCleanValue value := by
  cases value with
  | obj fields =>
      rw [redactValue, redacted, NestedCleanValue, ← redactDict_eq_iff fields]
      exact ⟨BodyJson.obj.inj, congrArg BodyJson.obj⟩
  | arr xs =>
      rw [redactValue, redacted, NestedCleanValue, ← redactItems_eq_iff xs]
      exact ⟨BodyJson.arr.inj, congrArg BodyJson.arr⟩
  | _ => simp [redactValue, redacted, NestedCleanValue]

theorem redactItems_eq_iff (xs : List BodyJson) :
    redactItems xs = redactedItems xs ↔ NestedCleanItems xs := by
  cases xs with
  | nil => simp [redactItems, redactedItems, NestedCleanItems]
  | cons item rest =>
      rw [redactItems, redactedItems, NestedCleanItems, List.cons.injEq, redactItem_eq_iff item,
        redactItems_eq_iff rest]

theorem redactItem_eq_iff (item : BodyJson) :
    redactItem item = redacted item ↔ NestedCleanItem item := by
  cases item with
  | obj fields =>
      rw [redactItem, redacted, NestedCleanItem, ← redactDict_eq_iff fields]
      exact ⟨BodyJson.obj.inj, congrArg BodyJson.obj⟩
  | arr xs =>
      -- A list within a list is right only as far as it is what it should become.
      rw [redactItem, redacted, NestedCleanItem, ← redactedItems_eq_self_iff xs]
      exact ⟨fun h ↦ (BodyJson.arr.inj h).symm, fun h ↦ congrArg BodyJson.arr h.symm⟩
  | _ => simp [redactItem, redacted, NestedCleanItem]

end

end BodyJson

end MergeQueue

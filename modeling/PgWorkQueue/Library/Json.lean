import Mathlib.Data.List.Basic
import Mathlib.Data.Nat.Digits.Defs

/-!
# Objects of natural numbers as JSON text

The compact text of an object whose values are natural numbers, and a reader
for such texts.  The writer escapes what JSON requires to be escaped and
nothing else.  The reader takes every escape that names a character of the
basic plane, except that it refuses the escape of U+0000 with an error of its
own, as a store does whose texts cannot hold that character.

Writing and reading back gives the same members exactly when no key contains
U+0000.
-/

namespace Library.Json

inductive Error where
  | malformed
  | nul
  deriving DecidableEq

/-! ## Writing -/

/-- One character within a string. -/
def escape (char : Char) : List Char :=
  if char = '"' then ['\\', '"']
  else if char = '\\' then ['\\', '\\']
  else if char = '\x08' then ['\\', 'b']
  else if char = '\x0c' then ['\\', 'f']
  else if char = '\n' then ['\\', 'n']
  else if char = '\r' then ['\\', 'r']
  else if char = '\t' then ['\\', 't']
  else if char.toNat < 32 then
    ['\\', 'u', '0', '0', Nat.digitChar (char.toNat / 16),
      Nat.digitChar (char.toNat % 16)]
  else [char]

def writeString (text : List Char) : List Char :=
  '"' :: (text.flatMap escape ++ ['"'])

def writeMember (member : List Char × Nat) : List Char :=
  writeString member.1 ++ ':' :: Nat.toDigits 10 member.2

/-- The members after the first brace, with the last one. -/
def writeMembers : List (List Char × Nat) → List Char
  | [] => ['}']
  | [member] => writeMember member ++ ['}']
  | member :: next :: rest =>
      writeMember member ++ ',' :: writeMembers (next :: rest)

def writeObject (members : List (List Char × Nat)) : List Char :=
  '{' :: writeMembers members

/-! ## Reading -/

def hexValue (char : Char) : Option Nat :=
  if '0' ≤ char ∧ char ≤ '9' then some (char.toNat - 48)
  else if 'a' ≤ char ∧ char ≤ 'f' then some (char.toNat - 87)
  else if 'A' ≤ char ∧ char ≤ 'F' then some (char.toNat - 55)
  else none

/-- The character of four hexadecimal digits. -/
def unicodeEscape (first second third fourth : Char) : Except Error Char :=
  match hexValue first, hexValue second, hexValue third, hexValue fourth with
  | some a, some b, some c, some d =>
      let code := ((a * 16 + b) * 16 + c) * 16 + d
      if code = 0 then .error .nul
      else if code.isValidChar then .ok (Char.ofNat code)
      else .error .malformed
  | _, _, _, _ => .error .malformed

/-- The character that follows a backslash. -/
def unescape (char : Char) : Option Char :=
  if char = '"' ∨ char = '\\' ∨ char = '/' then some char
  else if char = 'b' then some '\x08'
  else if char = 'f' then some '\x0c'
  else if char = 'n' then some '\n'
  else if char = 'r' then some '\r'
  else if char = 't' then some '\t'
  else none

def prepend (char : Char) (read : Except Error (List Char × List Char)) :
    Except Error (List Char × List Char) :=
  read.map fun found => (char :: found.1, found.2)

/-- The string up to its closing quote, and what follows. -/
def readString : List Char → Except Error (List Char × List Char)
  | [] => .error .malformed
  | '"' :: rest => .ok ([], rest)
  | '\\' :: 'u' :: first :: second :: third :: fourth :: rest =>
      match unicodeEscape first second third fourth with
      | .error failure => .error failure
      | .ok char => prepend char (readString rest)
  | '\\' :: escaped :: rest =>
      match unescape escaped with
      | none => .error .malformed
      | some char => prepend char (readString rest)
  | char :: rest =>
      if char.toNat < 32 then .error .malformed
      else prepend char (readString rest)

/-- A number has a digit, and no zero before its first one. -/
def isNumber (digits : List Char) : Bool :=
  !digits.isEmpty && (digits.length == 1 || digits.head? != some '0')

/-- After a member: the closing brace, or a comma and the members that `next`
reads. -/
def readNext (next : List Char → Except Error (List (List Char × Nat) × List Char))
    (member : List Char × Nat) :
    List Char → Except Error (List (List Char × Nat) × List Char)
  | '}' :: rest => .ok ([member], rest)
  | ',' :: rest => do
      let found ← next rest
      .ok (member :: found.1, found.2)
  | _ => .error .malformed

/-- The members up to the closing brace, and what follows.  Each member uses
one unit of the bound. -/
def readMembers : Nat → List Char →
    Except Error (List (List Char × Nat) × List Char)
  | 0, _ => .error .malformed
  | bound + 1, '"' :: text =>
      match readString text with
      | .ok (key, ':' :: afterColon) =>
          let digits := afterColon.takeWhile Char.isDigit
          if isNumber digits then
            readNext (readMembers bound) (key, Nat.ofDigitChars 10 digits 0)
              (afterColon.dropWhile Char.isDigit)
          else
            .error .malformed
      | .ok _ => .error .malformed
      | .error failure => .error failure
  | _ + 1, _ => .error .malformed

def readObject : List Char → Except Error (List (List Char × Nat))
  | ['{', '}'] => .ok []
  | '{' :: text => do
      let found ← readMembers text.length text
      if found.2.isEmpty then .ok found.1 else .error .malformed
  | _ => .error .malformed

/-! ## Reading back what was written -/

/-- The escape of a control character names it; that of U+0000 is refused. -/
theorem unicodeEscape_digitChar :
    ∀ code < 32, unicodeEscape '0' '0' (Nat.digitChar (code / 16))
      (Nat.digitChar (code % 16)) =
        if code = 0 then .error .nul else .ok (Char.ofNat code) := by
  decide

/-- A character that needs no escape is read as itself. -/
theorem readString_plain {char : Char} {rest : List Char}
    (quote : char ≠ '"') (backslash : char ≠ '\\')
    (printable : ¬ char.toNat < 32) :
    readString (char :: rest) = prepend char (readString rest) := by
  rw [readString]
  · rw [if_neg printable]
  · exact quote
  · intro _ _ _ _ _ same
    exact absurd same backslash
  · intro _ _ same
    exact absurd same backslash

theorem readString_escape (char : Char) (rest : List Char) :
    readString (escape char ++ rest) =
      if char = '\x00' then .error .nul
      else prepend char (readString rest) := by
  unfold escape
  -- The seven short escapes, then the control characters, then the rest.
  iterate 7
    split
    · rename_i short
      subst short
      rfl
  split
  · rename_i control
    have escaped := unicodeEscape_digitChar char.toNat control
    by_cases nul : char = '\x00'
    · subst nul
      rfl
    · have positive : char.toNat ≠ 0 := by
        intro zero
        exact nul (Char.toNat_inj.mp zero)
      rw [if_neg positive, Char.ofNat_toNat] at escaped
      simp only [List.cons_append, List.nil_append, readString, escaped,
        if_neg nul]
  · rename_i quote backslash _ _ _ _ _ printable
    have nul : char ≠ '\x00' := by
      rintro rfl
      exact printable (by decide)
    rw [if_neg nul]
    exact readString_plain quote backslash printable

theorem readString_flatMap_escape (text rest : List Char) :
    readString (text.flatMap escape ++ '"' :: rest) =
      if '\x00' ∈ text then .error .nul else .ok (text, rest) := by
  induction text with
  | nil => rfl
  | cons char text readBack =>
      rw [List.flatMap_cons, List.append_assoc, readString_escape, readBack]
      by_cases nul : char = '\x00'
      · rw [if_pos nul, if_pos (List.mem_cons.mpr (.inl nul.symm))]
      · rw [if_neg nul]
        by_cases later : '\x00' ∈ text
        · rw [if_pos later, if_pos (List.mem_cons_of_mem _ later)]
          rfl
        · have none : '\x00' ∉ char :: text := by
            rw [List.mem_cons, not_or]
            exact ⟨fun same => nul same.symm, later⟩
          rw [if_neg later, if_neg none]
          rfl

theorem head?_toDigits_ne_zero {value : Nat} (positive : 0 < value) :
    (Nat.toDigits 10 value).head? ≠ some '0' := by
  induction value using Nat.strong_induction_on with
  | _ value smaller =>
      rw [Nat.toDigits_eq_if (by decide)]
      split
      · rename_i digit
        have nonzero : ∀ d < 10, 0 < d → some (Nat.digitChar d) ≠ some '0' := by
          decide
        exact nonzero value digit positive
      · rename_i large
        have shorter := smaller (value / 10) (by omega) (by omega)
        rw [List.head?_append_of_ne_nil _ Nat.toDigits_ne_nil]
        exact shorter

theorem isNumber_toDigits (value : Nat) :
    isNumber (Nat.toDigits 10 value) = true := by
  have nonempty : (Nat.toDigits 10 value).isEmpty = false := by
    rw [List.isEmpty_eq_false_iff]
    exact Nat.toDigits_ne_nil
  rw [isNumber, nonempty]
  by_cases zero : value = 0
  · subst zero
    rfl
  · have head := head?_toDigits_ne_zero (Nat.pos_of_ne_zero zero)
    simp [head]

/-- The digits of a number end where no digit follows. -/
theorem takeWhile_toDigits (value : Nat) {separator : Char} (rest : List Char)
    (stops : separator.isDigit = false) :
    (Nat.toDigits 10 value ++ separator :: rest).takeWhile Char.isDigit =
        Nat.toDigits 10 value ∧
      (Nat.toDigits 10 value ++ separator :: rest).dropWhile Char.isDigit =
        separator :: rest := by
  have digits : ∀ char ∈ Nat.toDigits 10 value, char.isDigit = true :=
    fun char member =>
      Nat.isDigit_of_mem_toDigits (by decide) (by decide) member
  rw [List.takeWhile_append_of_pos digits, List.dropWhile_append_of_pos digits]
  simp [stops]

/-- One member, up to the character that ends its number. -/
theorem readMembers_writeMember (bound : Nat) (member : List Char × Nat)
    {separator : Char} (rest : List Char)
    (stops : separator.isDigit = false) :
    readMembers (bound + 1) (writeMember member ++ separator :: rest) =
      if '\x00' ∈ member.1 then .error .nul
      else readNext (readMembers bound) member (separator :: rest) := by
  obtain ⟨key, value⟩ := member
  obtain ⟨digits, after⟩ := takeWhile_toDigits value rest stops
  simp only [writeMember, writeString, List.cons_append, List.append_assoc,
    List.nil_append, readMembers, readString_flatMap_escape]
  by_cases nul : '\x00' ∈ key
  · simp only [if_pos nul]
  · simp only [if_neg nul, digits, after, isNumber_toDigits, if_true,
      Nat.ofDigitChars_ten_toDigits]

/-- Some key contains U+0000. -/
def hasNul (members : List (List Char × Nat)) : Bool :=
  members.any fun member => decide ('\x00' ∈ member.1)

theorem readMembers_writeMembers {members : List (List Char × Nat)}
    (nonempty : members ≠ []) {bound : Nat} (fits : members.length ≤ bound)
    (rest : List Char) :
    readMembers bound (writeMembers members ++ rest) =
      if hasNul members then .error .nul else .ok (members, rest) := by
  induction members generalizing bound with
  | nil => exact absurd rfl nonempty
  | cons member later readBack =>
      cases bound with
      | zero => exact absurd fits (Nat.not_succ_le_zero _)
      | succ bound =>
          have split : hasNul (member :: later) =
              (decide ('\x00' ∈ member.1) || hasNul later) := rfl
          cases later with
          | nil =>
              rw [writeMembers, List.append_assoc, List.singleton_append,
                readMembers_writeMember bound member rest (by decide), split]
              by_cases here : '\x00' ∈ member.1
              · simp [here]
              · simp [here, hasNul, readNext]
          | cons next later =>
              have read := readBack (List.cons_ne_nil _ _)
                (Nat.le_of_succ_le_succ fits)
              rw [writeMembers, List.append_assoc, List.cons_append,
                readMembers_writeMember bound member _ (by decide), readNext,
                read, split]
              by_cases here : '\x00' ∈ member.1
              · simp [here]
              · cases hasNul (next :: later) with
                | false => simp [here, bind, Except.bind]
                | true => simp [here, bind, Except.bind]

/-- Every member takes at least one character. -/
theorem length_le_length_writeMembers (members : List (List Char × Nat)) :
    members.length ≤ (writeMembers members).length := by
  induction members with
  | nil => exact Nat.zero_le _
  | cons member later shorter =>
      cases later with
      | nil =>
          rw [writeMembers, List.length_append]
          exact Nat.le_add_left _ _
      | cons next later =>
          simp only [List.length_cons] at shorter
          simp only [writeMembers, List.length_append, List.length_cons]
          omega

theorem exists_writeMembers_eq (member : List Char × Nat)
    (later : List (List Char × Nat)) :
    ∃ tail, writeMembers (member :: later) = '"' :: tail := by
  cases later with
  | nil => exact ⟨_, rfl⟩
  | cons next later => exact ⟨_, rfl⟩

/-- What was written is read back, unless a key contains U+0000. -/
theorem readObject_writeObject (members : List (List Char × Nat)) :
    readObject (writeObject members) =
      if hasNul members then .error .nul else .ok members := by
  cases members with
  | nil => rfl
  | cons member later =>
      have fits := length_le_length_writeMembers (member :: later)
      have read := readMembers_writeMembers (List.cons_ne_nil member later)
        fits []
      obtain ⟨tail, quoted⟩ := exists_writeMembers_eq member later
      rw [List.append_nil, quoted] at read
      rw [writeObject, quoted]
      change (readMembers ('"' :: tail).length ('"' :: tail) >>= _) = _
      rw [read]
      cases hasNul (member :: later) with
      | false => rfl
      | true => rfl

end Library.Json

import QueryFilter.Json.Basic

/-!
# Tokens of a JSON text

Six marks, and literals that stand for values. Strings hold no raw control
characters; a character may be escaped by name or by its UTF-16 units, and a pair
of surrogates that follow each other is one character.
-/

namespace QueryFilter
namespace Json

inductive Token
  | beginArray
  | endArray
  | beginObject
  | endObject
  | colon
  | comma
  | literal (value : Json)

def isSpace (c : Char) : Bool :=
  c = ' ' || c = '\t' || c = '\r' || c = '\n'

/-! ### Strings -/

/-- A part of a string literal: a character, or an escaped UTF-16 unit. -/
inductive Part
  | character (c : Char)
  | unit (value : Nat)

def hexDigit? (c : Char) : Option Nat :=
  if c.isDigit then some (c.toNat - '0'.toNat)
  else if 'a' ≤ c ∧ c ≤ 'f' then some (c.toNat - 'a'.toNat + 10)
  else if 'A' ≤ c ∧ c ≤ 'F' then some (c.toNat - 'A'.toNat + 10)
  else none

/-- The unit of four hexadecimal digits. -/
def unit? (a b c d : Char) : Option Nat := do
  return (((← hexDigit? a) * 16 + (← hexDigit? b)) * 16 + (← hexDigit? c)) * 16 + (← hexDigit? d)

/-- The character that is escaped by name. -/
def named? : Char → Option Char
  | '"' => some '"'
  | '\\' => some '\\'
  | '/' => some '/'
  | 'b' => some '\x08'
  | 'f' => some '\x0c'
  | 'n' => some '\n'
  | 'r' => some '\r'
  | 't' => some '\t'
  | _ => none

/-- The parts of a string literal, read after its opening quote, and what follows
its closing one. -/
def quoted? : List Char → Option (List Part × List Char)
  | [] => none
  | '"' :: rest => some ([], rest)
  | '\\' :: 'u' :: a :: b :: c :: d :: rest => do
    let value ← unit? a b c d
    let (parts, following) ← quoted? rest
    return (.unit value :: parts, following)
  | '\\' :: c :: rest => do
    let named ← named? c
    let (parts, following) ← quoted? rest
    return (.character named :: parts, following)
  | c :: rest =>
    if c.toNat < 0x20 then none
    else do
      let (parts, following) ← quoted? rest
      return (.character c :: parts, following)

theorem length_lt_of_quoted? {cs following : List Char} {parts : List Part}
    (h : quoted? cs = some (parts, following)) : following.length < cs.length := by
  fun_induction quoted? cs generalizing parts following with
  | case1 => simp at h
  | case2 rest => simp_all
  | case3 a b c d rest ih =>
    simp only [Option.bind_eq_bind, Option.bind_eq_some_iff, Option.pure_def,
      Option.some.injEq, Prod.mk.injEq] at h
    obtain ⟨_, _, ⟨p, f⟩, hrest, _, rfl⟩ := h
    have := ih hrest
    simp only [List.length_cons]
    omega
  | case4 c rest _ ih =>
    simp only [Option.bind_eq_bind, Option.bind_eq_some_iff, Option.pure_def,
      Option.some.injEq, Prod.mk.injEq] at h
    obtain ⟨_, _, ⟨p, f⟩, hrest, _, rfl⟩ := h
    have := ih hrest
    simp only [List.length_cons]
    omega
  | case5 => simp at h
  | case6 c rest _ _ _ _ ih =>
    simp only [Option.bind_eq_bind, Option.bind_eq_some_iff, Option.pure_def,
      Option.some.injEq, Prod.mk.injEq] at h
    obtain ⟨⟨p, f⟩, hrest, _, rfl⟩ := h
    have := ih hrest
    simp only [List.length_cons]
    omega

def isLeading (unit : Nat) : Bool := 0xD800 ≤ unit && unit < 0xDC00

def isTrailing (unit : Nat) : Bool := 0xDC00 ≤ unit && unit < 0xE000

/-- The text of a string literal, unless it has half of a surrogate pair. -/
def textOf? : List Part → Option (List Char)
  | [] => some []
  | .character c :: rest => (textOf? rest).map (c :: ·)
  | .unit lead :: .unit trail :: rest =>
    if isLeading lead && isTrailing trail then
      let code := 0x10000 + (lead - 0xD800) * 0x400 + (trail - 0xDC00)
      (textOf? rest).map (Char.ofNat code :: ·)
    else if isLeading lead || isTrailing lead then none
    else (textOf? (.unit trail :: rest)).map (Char.ofNat lead :: ·)
  | .unit value :: rest =>
    if isLeading value || isTrailing value then none
    else (textOf? rest).map (Char.ofNat value :: ·)

def ofParts (parts : List Part) : Json :=
  match textOf? parts with
  | some text => string (String.ofList text)
  | none => illegible

/-! ### Numbers and words -/

/-- Whether some characters are one or more digits. -/
def areDigits (cs : List Char) : Bool :=
  !cs.isEmpty && cs.all Char.isDigit

/-- Whether some characters are the exponent of a number, or nothing. -/
def isExponent : List Char → Bool
  | [] => true
  | c :: cs =>
    (c = 'e' || c = 'E') &&
      match cs with
      | '+' :: digits => areDigits digits
      | '-' :: digits => areDigits digits
      | digits => areDigits digits

/-- Whether some characters are the fraction and the exponent of a number. -/
def isFraction : List Char → Bool
  | '.' :: cs =>
    areDigits (cs.takeWhile Char.isDigit) && isExponent (cs.dropWhile Char.isDigit)
  | cs => isExponent cs

/-- The number that a run of characters writes. -/
def number? (run : List Char) : Option Json :=
  let isNegative := run.head? == some '-'
  let unsigned := if isNegative then run.tail else run
  let whole := unsigned.takeWhile Char.isDigit
  let rest := unsigned.dropWhile Char.isDigit
  if whole.isEmpty || (whole.head? == some '0' && 1 < whole.length) then none
  else if isNegative || !rest.isEmpty then
    if isFraction rest then some (decimal (String.ofList run)) else none
  else some (natural (Nat.ofDigitChars 10 whole 0))

/-- The value that a run of characters without quotes and marks writes. -/
def bare? (run : List Char) : Option Json :=
  match String.ofList run with
  | "null" => some null
  | "true" => some (bool true)
  | "false" => some (bool false)
  | _ => number? run

/-- Whether a character can stand in a number or a word. -/
def isBare (c : Char) : Bool :=
  c.isAlphanum || c = '+' || c = '-' || c = '.'

/-! ### Texts -/

def mark? : Char → Option Token
  | '[' => some .beginArray
  | ']' => some .endArray
  | '\x7b' => some .beginObject
  | '\x7d' => some .endObject
  | ':' => some .colon
  | ',' => some .comma
  | _ => none

/-- The tokens of a text, if it is made of tokens and spaces. -/
def tokens? : List Char → Option (List Token)
  | [] => some []
  | c :: cs =>
    if isSpace c then tokens? cs
    else if c = '"' then
      match _h : quoted? cs with
      | none => none
      | some (parts, rest) => (tokens? rest).map (.literal (ofParts parts) :: ·)
    else if isBare c then
      match bare? (c :: cs.takeWhile isBare) with
      | none => none
      | some value => (tokens? (cs.dropWhile isBare)).map (.literal value :: ·)
    else
      match mark? c with
      | none => none
      | some token => (tokens? cs).map (token :: ·)
termination_by cs => cs.length
decreasing_by
  · simp only [List.length_cons]
    omega
  · have := length_lt_of_quoted? _h
    simp only [List.length_cons]
    omega
  · have := (List.dropWhile_suffix isBare (l := cs)).length_le
    simp only [List.length_cons]
    omega
  · simp only [List.length_cons]
    omega

end Json
end QueryFilter

import TurboAgent.Data.Bytes

/-!
# JSON texts

The grammar of JSON texts over bytes, with the nesting depth of their objects and arrays.  A
byte above 127 may stand anywhere in a string, so that texts need not be UTF-8.

What a scanner for brackets sees of a text is coarser: quoted parts, brackets that match, and
bytes that mean nothing to it.  Every JSON text has that shape, with the same depth.
-/

namespace TurboAgent.JsonText

/-! ## Bytes -/

def ascii (characters : List Char) : Bytes := characters.map asciiByte

/-- `"`. -/
def quote : UInt8 := asciiByte '"'

/-- `\`. -/
def backslash : UInt8 := asciiByte '\\'

def isOpen (byte : UInt8) : Bool := byte == asciiByte '{' || byte == asciiByte '['

/-- The brackets that close an object or an array. -/
def isClose (byte : UInt8) : Bool := byte == asciiByte '}' || byte == asciiByte ']'

/-- A byte that neither ends a text nor quotes nor nests. -/
def isPlain (byte : UInt8) : Bool :=
  byte != 0 && byte != quote && !isOpen byte && !isClose byte

variable {byte : UInt8}

theorem isOpen_iff : isOpen byte = true ↔ byte = asciiByte '{' ∨ byte = asciiByte '[' := by
  simp only [isOpen, Bool.or_eq_true, beq_iff_eq]

theorem isClose_iff : isClose byte = true ↔ byte = asciiByte '}' ∨ byte = asciiByte ']' := by
  simp only [isClose, Bool.or_eq_true, beq_iff_eq]

theorem isPlain_iff :
    isPlain byte = true ↔
      byte ≠ 0 ∧ byte ≠ quote ∧ isOpen byte = false ∧ isClose byte = false := by
  simp only [isPlain, Bool.and_eq_true, bne_iff_ne, Bool.not_eq_true', and_assoc]

theorem isOpen_apart (opens : isOpen byte = true) :
    byte ≠ 0 ∧ byte ≠ quote ∧ isClose byte = false := by
  rcases isOpen_iff.mp opens with rfl | rfl <;> decide

theorem isClose_apart (closes : isClose byte = true) :
    byte ≠ 0 ∧ byte ≠ quote ∧ isOpen byte = false := by
  rcases isClose_iff.mp closes with rfl | rfl <;> decide

/-! ## The grammar -/

def Blank (text : Bytes) : Prop := ∀ byte ∈ text, byte ∈ ascii [' ', '\t', '\n', '\r']

def digits : Bytes := ascii ['0', '1', '2', '3', '4', '5', '6', '7', '8', '9']

def hexLetters : Bytes :=
  ascii ['a', 'b', 'c', 'd', 'e', 'f', 'A', 'B', 'C', 'D', 'E', 'F']

def IsDigit (byte : UInt8) : Prop := byte ∈ digits

def IsHexDigit (byte : UInt8) : Prop := byte ∈ digits ∨ byte ∈ hexLetters

def Digits (text : Bytes) : Prop := text ≠ [] ∧ ∀ byte ∈ text, IsDigit byte

/-- The integer part of a number: it has no leading zero. -/
def IntegerPart (text : Bytes) : Prop :=
  text = [asciiByte '0'] ∨ Digits text ∧ text.head? ≠ some (asciiByte '0')

/-- The fraction of a number, which may be missing. -/
def FractionPart (text : Bytes) : Prop :=
  text = [] ∨ ∃ digits, Digits digits ∧ text = asciiByte '.' :: digits

/-- The exponent of a number, which may be missing. -/
def ExponentPart (text : Bytes) : Prop :=
  text = [] ∨ ∃ mark sign digits, mark ∈ ascii ['e', 'E'] ∧
    (sign = [] ∨ sign = [asciiByte '+'] ∨ sign = [asciiByte '-']) ∧ Digits digits ∧
    text = mark :: (sign ++ digits)

def NumberText (text : Bytes) : Prop :=
  ∃ minus integer fraction exponent, (minus = [] ∨ minus = [asciiByte '-']) ∧
    IntegerPart integer ∧ FractionPart fraction ∧ ExponentPart exponent ∧
    text = minus ++ integer ++ fraction ++ exponent

/-- What stands between the quotes of a string. -/
inductive StringBody : Bytes → Prop where
  | nil : StringBody []
  | unescaped {byte : UInt8} {rest : Bytes} : 0x20 ≤ byte → byte ≠ quote → byte ≠ backslash →
      StringBody rest → StringBody (byte :: rest)
  | escape {byte : UInt8} {rest : Bytes} :
      byte = quote ∨ byte = backslash ∨ byte ∈ ascii ['/', 'b', 'f', 'n', 'r', 't'] →
      StringBody rest → StringBody (backslash :: byte :: rest)
  | unicode {first second third fourth : UInt8} {rest : Bytes} :
      IsHexDigit first → IsHexDigit second → IsHexDigit third → IsHexDigit fourth →
      StringBody rest →
      StringBody (backslash :: asciiByte 'u' :: first :: second :: third :: fourth :: rest)

def StringText (text : Bytes) : Prop :=
  ∃ body, StringBody body ∧ text = quote :: (body ++ [quote])

/-- The parts of the grammar that refer to each other. -/
inductive Part where
  | value
  | elements
  | members

/-- The texts of a part and the depth to which they nest objects and arrays. -/
inductive Derives : Part → Bytes → Nat → Prop where
  | nullLiteral : Derives .value (ascii ['n', 'u', 'l', 'l']) 0
  | trueLiteral : Derives .value (ascii ['t', 'r', 'u', 'e']) 0
  | falseLiteral : Derives .value (ascii ['f', 'a', 'l', 's', 'e']) 0
  | number {text : Bytes} : NumberText text → Derives .value text 0
  | string {text : Bytes} : StringText text → Derives .value text 0
  | emptyArray {space : Bytes} : Blank space →
      Derives .value (asciiByte '[' :: (space ++ [asciiByte ']'])) 1
  | array {text : Bytes} {depth : Nat} : Derives .elements text depth →
      Derives .value (asciiByte '[' :: (text ++ [asciiByte ']'])) (depth + 1)
  | emptyObject {space : Bytes} : Blank space →
      Derives .value (asciiByte '{' :: (space ++ [asciiByte '}'])) 1
  | object {text : Bytes} {depth : Nat} : Derives .members text depth →
      Derives .value (asciiByte '{' :: (text ++ [asciiByte '}'])) (depth + 1)
  | lastElement {before text after : Bytes} {depth : Nat} :
      Blank before → Derives .value text depth → Blank after →
      Derives .elements (before ++ text ++ after) depth
  | element {before text after others : Bytes} {depth othersDepth : Nat} :
      Blank before → Derives .value text depth → Blank after →
      Derives .elements others othersDepth →
      Derives .elements (before ++ text ++ after ++ asciiByte ',' :: others)
        (max depth othersDepth)
  | lastMember {before key afterKey beforeText text after : Bytes} {depth : Nat} :
      Blank before → StringText key → Blank afterKey →
      Blank beforeText → Derives .value text depth → Blank after →
      Derives .members
        (before ++ key ++ afterKey ++ asciiByte ':' :: (beforeText ++ text ++ after)) depth
  | member {before key afterKey beforeText text after others : Bytes} {depth othersDepth : Nat} :
      Blank before → StringText key → Blank afterKey →
      Blank beforeText → Derives .value text depth → Blank after →
      Derives .members others othersDepth →
      Derives .members
        (before ++ key ++ afterKey ++ asciiByte ':' ::
          (beforeText ++ text ++ after ++ asciiByte ',' :: others)) (max depth othersDepth)

abbrev ValueText (text : Bytes) (depth : Nat) : Prop := Derives .value text depth

def ContainerText (text : Bytes) (depth : Nat) : Prop :=
  ValueText text depth ∧ ∃ first ∈ text.head?, isOpen first = true

def DocumentText (text : Bytes) (depth : Nat) : Prop :=
  ∃ before value after, Blank before ∧ ValueText value depth ∧ Blank after ∧
    text = before ++ value ++ after

/-! ## What a bracket scanner sees -/

/-- A quoted part: a byte after a backslash does not end it. -/
inductive Quoted : Bytes → Prop where
  | nil : Quoted []
  | plain {byte : UInt8} {rest : Bytes} : byte ≠ 0 → byte ≠ quote → byte ≠ backslash →
      Quoted rest → Quoted (byte :: rest)
  | escape {byte : UInt8} {rest : Bytes} : byte ≠ 0 → Quoted rest →
      Quoted (backslash :: byte :: rest)

/-- A text whose brackets outside of quoted parts match, with the depth to which they nest. -/
inductive Nested : Bytes → Nat → Prop where
  | nil : Nested [] 0
  | plain {byte : UInt8} : isPlain byte = true → Nested [byte] 0
  | quoted {body : Bytes} : Quoted body → Nested (quote :: (body ++ [quote])) 0
  | append {left right : Bytes} {leftDepth rightDepth : Nat} :
      Nested left leftDepth → Nested right rightDepth →
      Nested (left ++ right) (max leftDepth rightDepth)
  | bracket {first last : UInt8} {inner : Bytes} {depth : Nat} :
      isOpen first = true → Nested inner depth → isClose last = true →
      Nested (first :: (inner ++ [last])) (depth + 1)

variable {text : Bytes}

theorem nested_of_plain (plain : text.all isPlain = true) : Nested text 0 := by
  induction text with
  | nil => exact .nil
  | cons byte rest ih =>
      rw [List.all_cons, Bool.and_eq_true] at plain
      exact .append (.plain plain.1) (ih plain.2)

variable {depth : Nat}

theorem Nested.before {space : Bytes} (plain : space.all isPlain = true)
    (nested : Nested text depth) : Nested (space ++ text) depth := by
  have joined := Nested.append (nested_of_plain plain) nested
  rwa [Nat.zero_max] at joined

theorem Nested.after {space : Bytes} (nested : Nested text depth) (plain : space.all isPlain = true) :
    Nested (text ++ space) depth := by
  have joined := Nested.append nested (nested_of_plain plain)
  rwa [Nat.max_zero] at joined

theorem Nested.cons {byte : UInt8} {text : Bytes} {depth : Nat} (plain : isPlain byte = true)
    (nested : Nested text depth) : Nested (byte :: text) depth :=
  nested.before (List.all_eq_true.mpr (List.forall_mem_singleton.mpr plain))

/-! ## JSON texts are nested texts -/

theorem all_of_subset {set : Bytes} {test : UInt8 → Bool} (passed : set.all test = true)
    (subset : ∀ byte ∈ text, byte ∈ set) : text.all test = true :=
  List.all_eq_true.mpr fun byte member => List.all_eq_true.mp passed byte (subset byte member)

theorem Blank.plain {text : Bytes} (blank : Blank text) : text.all isPlain = true :=
  all_of_subset (by decide) blank

theorem Digits.plain {text : Bytes} (isDigits : Digits text) : text.all isPlain = true :=
  all_of_subset (by decide) isDigits.2

theorem IsHexDigit.plain {byte : UInt8} (digit : IsHexDigit byte) :
    byte ≠ 0 ∧ byte ≠ quote ∧ byte ≠ backslash := by
  have decimal : digits.all (fun byte => isPlain byte && byte != backslash) = true := by decide
  have letters : hexLetters.all (fun byte => isPlain byte && byte != backslash) = true := by
    decide
  have passed : (isPlain byte && byte != backslash) = true :=
    digit.elim (List.all_eq_true.mp decimal byte) (List.all_eq_true.mp letters byte)
  rw [Bool.and_eq_true, isPlain_iff, bne_iff_ne] at passed
  exact ⟨passed.1.1, passed.1.2.1, passed.2⟩

theorem IntegerPart.plain {text : Bytes} (integer : IntegerPart text) :
    text.all isPlain = true := by
  rcases integer with rfl | ⟨isDigits, -⟩
  · decide
  · exact isDigits.plain

theorem FractionPart.plain {text : Bytes} (fraction : FractionPart text) :
    text.all isPlain = true := by
  rcases fraction with rfl | ⟨digits, isDigits, rfl⟩
  · rfl
  · rw [List.all_cons, isDigits.plain]
    decide

theorem ExponentPart.plain {text : Bytes} (exponent : ExponentPart text) :
    text.all isPlain = true := by
  rcases exponent with rfl | ⟨mark, sign, digits, isMark, isSign, isDigits, rfl⟩
  · rfl
  · have marks : isPlain mark = true := by
      have each : (ascii ['e', 'E']).all isPlain = true := by decide
      exact List.all_eq_true.mp each mark isMark
    have signs : sign.all isPlain = true := by
      rcases isSign with rfl | rfl | rfl <;> decide
    rw [List.all_cons, List.all_append, marks, signs, isDigits.plain]
    rfl

theorem NumberText.plain {text : Bytes} (number : NumberText text) : text.all isPlain = true := by
  obtain ⟨minus, integer, fraction, exponent, isMinus, isInteger, isFraction, isExponent, rfl⟩ :=
    number
  have minuses : minus.all isPlain = true := by
    rcases isMinus with rfl | rfl <;> decide
  rw [List.all_append, List.all_append, List.all_append, minuses, isInteger.plain,
    isFraction.plain, isExponent.plain]
  rfl

theorem StringBody.quoted {body : Bytes} (isBody : StringBody body) : Quoted body := by
  induction isBody with
  | nil => exact .nil
  | unescaped printable notQuote notBackslash _ ih =>
      refine .plain ?_ notQuote notBackslash ih
      rintro rfl
      exact absurd printable (by decide)
  | escape isEscape _ ih =>
      have letters : (ascii ['/', 'b', 'f', 'n', 'r', 't']).all (· != 0) = true := by decide
      refine .escape ?_ ih
      rcases isEscape with rfl | rfl | member
      · decide
      · decide
      · exact bne_iff_ne.mp (List.all_eq_true.mp letters _ member)
  | unicode first second third fourth _ ih =>
      have further : ∀ {byte : UInt8} {rest : Bytes}, IsHexDigit byte → Quoted rest →
          Quoted (byte :: rest) := fun digit quoted =>
        .plain digit.plain.1 digit.plain.2.1 digit.plain.2.2 quoted
      have digits := further first (further second (further third (further fourth ih)))
      exact .escape (by decide) digits

theorem StringText.nested (isString : StringText text) : Nested text 0 := by
  obtain ⟨body, isBody, rfl⟩ := isString
  exact .quoted isBody.quoted

theorem Derives.nested {part : Part} (derived : Derives part text depth) : Nested text depth := by
  have comma : isPlain (asciiByte ',') = true := by decide
  have colon : isPlain (asciiByte ':') = true := by decide
  induction derived with
  | nullLiteral => exact nested_of_plain (by decide)
  | trueLiteral => exact nested_of_plain (by decide)
  | falseLiteral => exact nested_of_plain (by decide)
  | number isNumber => exact nested_of_plain isNumber.plain
  | string isString => exact isString.nested
  | emptyArray blank => exact .bracket (by decide) (nested_of_plain blank.plain) (by decide)
  | array _ ih => exact .bracket (by decide) ih (by decide)
  | emptyObject blank => exact .bracket (by decide) (nested_of_plain blank.plain) (by decide)
  | object _ ih => exact .bracket (by decide) ih (by decide)
  | lastElement before _ after ih => exact (ih.before before.plain).after after.plain
  | element before _ after _ ih othersIh =>
      exact .append ((ih.before before.plain).after after.plain) (othersIh.cons comma)
  | lastMember before key afterKey beforeText _ after ih =>
      have name := (key.nested.before before.plain).after afterKey.plain
      have joined := name.append (((ih.before beforeText.plain).after after.plain).cons colon)
      rwa [Nat.zero_max] at joined
  | member before key afterKey beforeText _ after _ ih othersIh =>
      have name := (key.nested.before before.plain).after afterKey.plain
      have values := ((ih.before beforeText.plain).after after.plain).append (othersIh.cons comma)
      have joined := name.append (values.cons colon)
      rwa [Nat.zero_max] at joined

theorem DocumentText.nested (document : DocumentText text depth) : Nested text depth := by
  obtain ⟨before, value, after, blankBefore, isValue, blankAfter, rfl⟩ := document
  exact (isValue.nested.before blankBefore.plain).after blankAfter.plain

theorem ContainerText.bracketed (container : ContainerText text depth) :
    ∃ first inner last innerDepth, isOpen first = true ∧ Nested inner innerDepth ∧
      isClose last = true ∧ text = first :: (inner ++ [last]) ∧ depth = innerDepth + 1 := by
  obtain ⟨derived, first, head, opens⟩ := container
  cases derived with
  | nullLiteral => cases head; exact absurd opens (by decide)
  | trueLiteral => cases head; exact absurd opens (by decide)
  | falseLiteral => cases head; exact absurd opens (by decide)
  | number isNumber =>
      have plain := List.all_eq_true.mp isNumber.plain first (List.mem_of_head? head)
      exact absurd opens (by simp [(isPlain_iff.mp plain).2.2.1])
  | string isString =>
      obtain ⟨body, -, rfl⟩ := isString
      cases head
      exact absurd opens (by decide)
  | emptyArray blank =>
      exact ⟨_, _, _, 0, by decide, nested_of_plain blank.plain, by decide, rfl, rfl⟩
  | array derived => exact ⟨_, _, _, _, by decide, derived.nested, by decide, rfl, rfl⟩
  | emptyObject blank =>
      exact ⟨_, _, _, 0, by decide, nested_of_plain blank.plain, by decide, rfl, rfl⟩
  | object derived => exact ⟨_, _, _, _, by decide, derived.nested, by decide, rfl, rfl⟩

end TurboAgent.JsonText

import Phrasebook.Source.Identifier

/-!
# Source/Token — the pieces of source code

A cursor stands at one token of a text.  How a piece is read can depend on what stands around it,
so tokens are read one at a time: a slash is read as punctuation, and whoever expects a value
reads it anew as a regular expression; angle brackets are always single, and whoever expects an
operator joins them.  A piece that is no token is `bad`, which nobody accepts.
-/

namespace Phrasebook.Source

/-- A piece of source code. -/
inductive Token where
  | ending
  /-- A name or a keyword; an escaped one is never a keyword. -/
  | word (text : String) (escaped : Bool)
  | privateName (text : String)
  | number
  | text (content : String)
  | sign (text : String)
  | bad
  deriving DecidableEq, Inhabited

/-- Characters that end a line. -/
def isLineEnd (c : Char) : Bool :=
  c = '\n' || c = '\r' || c.toNat = 0x2028 || c.toNat = 0x2029

/-- Characters that separate tokens and end no line. -/
@[irreducible] def isSpace (c : Char) : Bool :=
  c = ' ' || c = '\t' || c.toNat = 0xb || c.toNat = 0xc || c.toNat = 0xa0 || c.toNat = 0xfeff ||
    c.toNat = 0x1680 || (0x2000 ≤ c.toNat && c.toNat ≤ 0x200a) || c.toNat = 0x202f ||
    c.toNat = 0x205f || c.toNat = 0x3000

/-- Where the reading of blanks and comments stands. -/
inductive BlankMode where
  | plain
  | lineComment
  | blockComment

/-- The text behind blanks and comments, and whether a line ended in between; `none` for a comment
that does not end. -/
def skipBlanks (mode : BlankMode) (lineEnded : Bool) : List Char → Option (Bool × List Char)
  | [] =>
    match mode with
    | .blockComment => none
    | _ => some (lineEnded, [])
  | c :: rest =>
    match mode with
    | .plain =>
      if isLineEnd c then skipBlanks .plain true rest
      else if isSpace c then skipBlanks .plain lineEnded rest
      else if c = '/' then
        match rest with
        | '/' :: rest => skipBlanks .lineComment lineEnded rest
        | '*' :: rest => skipBlanks .blockComment lineEnded rest
        | rest => some (lineEnded, c :: rest)
      else some (lineEnded, c :: rest)
    | .lineComment =>
      if isLineEnd c then skipBlanks .plain true rest else skipBlanks .lineComment lineEnded rest
    | .blockComment =>
      if c = '*' then
        match rest with
        | '/' :: rest => skipBlanks .plain lineEnded rest
        | rest => skipBlanks .blockComment lineEnded rest
      else skipBlanks .blockComment (lineEnded || isLineEnd c) rest

/-! ## Escapes -/

/-- The value of a hexadecimal digit. -/
def hexDigit? (c : Char) : Option Nat :=
  if c.isDigit then some (c.toNat - '0'.toNat)
  else if 'a' ≤ c ∧ c ≤ 'f' then some (c.toNat - 'a'.toNat + 10)
  else if 'A' ≤ c ∧ c ≤ 'F' then some (c.toNat - 'A'.toNat + 10)
  else none

/-- The number that hexadecimal digits write, if all of them are. -/
def hexNumber? (digits : List Char) : Option Nat :=
  digits.foldl
    (fun value digit =>
      match value, hexDigit? digit with
      | some value, some digit => some (value * 16 + digit)
      | _, _ => none)
    (some 0)

/-- The code point of a Unicode escape behind its `u`, with the text behind it: four digits, or any
number of them in braces up to the last code point. -/
def unicodeEscape? : List Char → Option (Nat × List Char)
  | '\x7b' :: rest =>
    let digits := rest.takeWhile (· ≠ '\x7d')
    match digits, hexNumber? digits, rest.dropWhile (· ≠ '\x7d') with
    | _ :: _, some point, _ :: after => if point ≤ 0x10ffff then some (point, after) else none
    | _, _, _ => none
  | a :: b :: c :: d :: rest => (hexNumber? [a, b, c, d]).map fun point => (point, rest)
  | _ => none

/-- The code points that an escape behind its backslash stands for, with the text behind it;
`none` for an escape that texts of templates may not have. -/
def escape? : List Char → Option (List Nat × List Char)
  | [] => none
  | '\r' :: '\n' :: rest => some ([], rest)
  | 'u' :: rest => (unicodeEscape? rest).map fun (point, rest) => ([point], rest)
  | 'x' :: a :: b :: rest => (hexNumber? [a, b]).map fun point => ([point], rest)
  | 'x' :: _ => none
  | c :: rest =>
    if isLineEnd c then some ([], rest)
    else if c = '0' then
      match rest with
      | d :: _ => if d.isDigit then none else some ([0], rest)
      | [] => some ([0], rest)
    else if c.isDigit then none
    else
      let point :=
        match c with
        | 'b' => 8
        | 't' => 9
        | 'n' => 10
        | 'v' => 11
        | 'f' => 12
        | 'r' => 13
        | c => c.toNat
      some ([point], rest)

/-! ## Names -/

/-- The rest of a name, with the text behind it and whether it holds an escape.  The first list
bounds the characters, and the text itself is enough; a malformed escape makes the name `none`. -/
def nameTail : List Char → List Char → Option (List Char) × Bool × List Char
  | [], text => (some [], false, text)
  | _ :: bound, text =>
    match text with
    | [] => (some [], false, [])
    | '\\' :: 'u' :: rest =>
      match unicodeEscape? rest with
      | some (point, rest) =>
        let (tail, _, rest) := nameTail bound rest
        if isNamePart (Char.ofNat point) then (tail.map (Char.ofNat point :: ·), true, rest)
        else (none, true, rest)
      | none => (none, true, rest)
    | c :: rest =>
      if isNamePart c then
        let (tail, escaped, rest) := nameTail bound rest
        (tail.map (c :: ·), escaped, rest)
      else (some [], false, c :: rest)

/-- Whether a name starts here. -/
def startsName : List Char → Bool
  | '\\' :: 'u' :: rest =>
    match unicodeEscape? rest with
    | some (point, _) => isNameStart (Char.ofNat point)
    | none => false
  | c :: _ => isNameStart c
  | [] => false

/-- The token of a name that starts here, with the text behind it. -/
def readName (text : List Char) : Token × List Char :=
  match nameTail text text with
  | (some chars, escaped, rest) => (.word (String.ofList chars) escaped, rest)
  | (none, _, rest) => (.bad, rest)

/-! ## Numbers and texts -/

/-- Whether the character may stand in the digits of a number. -/
def isNumberPart (isDigit : Char → Bool) (c : Char) : Bool := isDigit c || c = '_'

/-- Nothing that could belong to a number or a name may follow a number directly. -/
def endNumber (rest : List Char) : Token × List Char :=
  if startsName rest || (rest.head?.map Char.isDigit).getD false then (.bad, rest)
  else (.number, rest)

/-- The end of a whole number, which may be marked as big. -/
def endWhole : List Char → Token × List Char
  | 'n' :: rest => endNumber rest
  | rest => endNumber rest

/-- The exponent of a number, if one stands here. -/
def readExponent (text : List Char) : Token × List Char :=
  let digits (rest : List Char) : Token × List Char :=
    match rest with
    | c :: _ =>
      if c.isDigit then endNumber (rest.dropWhile (isNumberPart Char.isDigit)) else (.bad, rest)
    | [] => (.bad, [])
  let behind (rest : List Char) : Token × List Char :=
    match rest with
    | '+' :: rest => digits rest
    | '-' :: rest => digits rest
    | rest => digits rest
  match text with
  | 'e' :: rest => behind rest
  | 'E' :: rest => behind rest
  | rest => endNumber rest

/-- A number that starts here. -/
def readNumber (text : List Char) : Token × List Char :=
  let based (isDigit : Char → Bool) (rest : List Char) : Token × List Char :=
    match rest with
    | c :: _ => if isDigit c then endWhole (rest.dropWhile (isNumberPart isDigit)) else (.bad, rest)
    | [] => (.bad, [])
  let decimal : Token × List Char :=
    match text.dropWhile (isNumberPart Char.isDigit) with
    | '.' :: rest => readExponent (rest.dropWhile (isNumberPart Char.isDigit))
    | 'n' :: rest => endNumber rest
    | rest => readExponent rest
  match text with
  | '0' :: c :: rest =>
    if c = 'x' ∨ c = 'X' then based (fun c => (hexDigit? c).isSome) rest
    else if c = 'o' ∨ c = 'O' then based (fun c => '0' ≤ c && c ≤ '7') rest
    else if c = 'b' ∨ c = 'B' then based (fun c => c = '0' || c = '1') rest
    else decimal
  | _ => decimal

/-- A character for a code point; a lone surrogate, which no character is, becomes a replacement. -/
def charOf (point : Nat) : Char :=
  if 0xd800 ≤ point ∧ point ≤ 0xdfff then Char.ofNat 0xfffd else Char.ofNat point

/-- A quoted text behind its opening quote.  The first list bounds the pieces. -/
def textTail (quote : Char) : List Char → List Char → Option (List Char × List Char)
  | [], _ => none
  | _ :: bound, text =>
    match text with
    | [] => none
    | '\\' :: rest =>
      match escape? rest with
      | some (points, rest) =>
        (textTail quote bound rest).map fun (chars, rest) => (points.map charOf ++ chars, rest)
      | none =>
        match rest with
        | c :: rest =>
          if c.isDigit then (textTail quote bound rest).map fun (chars, rest) => (c :: chars, rest)
          else none
        | [] => none
    | c :: rest =>
      if c = quote then some ([], rest)
      else if c = '\n' ∨ c = '\r' then none
      else (textTail quote bound rest).map fun (chars, rest) => (c :: chars, rest)

/-- A quoted text. -/
def readText (quote : Char) (rest : List Char) : Token × List Char :=
  match textTail quote (quote :: rest) rest with
  | some (chars, rest) => (.text (String.ofList chars), rest)
  | none => (.bad, rest)

/-! ## Signs -/

/-- The signs of three and four characters, each before those that it starts with. -/
def longSigns : List String :=
  ["...", "===", "!==", "**=", "&&=", "||=", "??=", "=>", "==", "!=", "**", "++", "--", "+=",
    "-=", "*=", "/=", "%=", "&&", "||", "??", "&=", "|=", "^="]

/-- The signs of one character. -/
def shortSigns : List Char :=
  ['\x7b', '\x7d', '(', ')', '[', ']', ';', ',', '<', '>', '+', '-', '*', '/', '%', '&', '|', '^',
    '!', '~', '?', ':', '=', '.', '@', '\x60']

/-- A sign that starts here. -/
def readSign (text : List Char) : Token × List Char :=
  match longSigns.find? fun sign => sign.toList.isPrefixOf text with
  | some sign => (.sign sign, text.drop sign.length)
  | none =>
    match text with
    | '?' :: '.' :: c :: rest =>
      if c.isDigit then (.sign "?", '.' :: c :: rest) else (.sign "?.", c :: rest)
    | ['?', '.'] => (.sign "?.", [])
    | c :: rest => if shortSigns.contains c then (.sign (String.ofList [c]), rest) else (.bad, rest)
    | [] => (.bad, [])

/-- The token that starts here, with the text behind it. -/
def readToken (text : List Char) : Token × List Char :=
  match text with
  | [] => (.ending, [])
  | '"' :: rest => readText '"' rest
  | '\x27' :: rest => readText '\x27' rest
  | '.' :: c :: rest =>
    if c.isDigit then readNumber ('.' :: c :: rest) else readSign ('.' :: c :: rest)
  | '#' :: rest =>
    if startsName rest then
      match readName rest with
      | (.word name _, rest) => (.privateName name, rest)
      | (_, rest) => (.bad, rest)
    else (.bad, rest)
  | c :: rest =>
    if c.isDigit then readNumber (c :: rest)
    else if startsName (c :: rest) then readName (c :: rest)
    else readSign (c :: rest)

/-- A place in source code: the token that stands there, its text and all behind it, the text behind
the token, and whether a line ended before it. -/
structure Cursor where
  token : Token
  here : List Char
  after : List Char
  lineEnded : Bool

namespace Cursor

/-- The cursor at the first token of a text. -/
def start (text : List Char) : Cursor :=
  match skipBlanks .plain false text with
  | none => { token := .bad, here := text, after := [], lineEnded := false }
  | some (lineEnded, here) =>
    let (token, after) := readToken here
    { token, here, after, lineEnded }

/-- The cursor at the next token. -/
def advance (cursor : Cursor) : Cursor := start cursor.after

end Cursor

/-! ## Regular expressions -/

/-- The text behind a regular expression whose opening slash has been read; `inClass` says whether
brackets are open. -/
def skipPattern (inClass : Bool) : List Char → Option (List Char)
  | [] => none
  | c :: rest =>
    if isLineEnd c then none
    else if c = '\\' then
      match rest with
      | [] => none
      | d :: rest => if isLineEnd d then none else skipPattern inClass rest
    else if inClass then skipPattern (c ≠ ']') rest
    else if c = '/' then some (rest.dropWhile isNamePart)
    else skipPattern (c = '[') rest

/-! ## Chunks of templates -/

/-- A chunk of a template: its code points unless an escape is malformed, whether it ends the
template, and the text behind it. -/
structure Chunk where
  points : Option (List Nat)
  isLast : Bool
  rest : List Char

/-- Puts code points in front of a chunk. -/
def Chunk.prepend (points : List Nat) (chunk : Chunk) : Chunk :=
  { chunk with points := chunk.points.map (points ++ ·) }

/-- The chunk that starts here.  Line ends count as line feeds.  The first list bounds the pieces.
-/
def readChunk : List Char → List Char → Option Chunk
  | [], _ => none
  | _ :: bound, text =>
    match text with
    | [] => none
    | '\x60' :: rest => some { points := some [], isLast := true, rest }
    | '$' :: '\x7b' :: rest => some { points := some [], isLast := false, rest }
    | '\r' :: '\n' :: rest => (readChunk bound rest).map (.prepend [10])
    | '\r' :: rest => (readChunk bound rest).map (.prepend [10])
    | '\\' :: rest =>
      match escape? rest with
      | some (points, rest) => (readChunk bound rest).map (.prepend points)
      | none =>
        match rest with
        | [] => none
        | _ :: rest => (readChunk bound rest).map fun chunk => { chunk with points := none }
    | c :: rest => (readChunk bound rest).map (.prepend [c.toNat])

/-- The text of code points: a high surrogate and the low one behind it are one character, and one
that stands alone is none. -/
def pointsText? : List Nat → Option (List Char)
  | [] => some []
  | point :: rest =>
    if 0xd800 ≤ point ∧ point ≤ 0xdbff then
      match rest with
      | low :: rest =>
        if 0xdc00 ≤ low ∧ low ≤ 0xdfff then
          (pointsText? rest).map
            (Char.ofNat ((point - 0xd800) * 0x400 + (low - 0xdc00) + 0x10000) :: ·)
        else none
      | [] => none
    else if 0xdc00 ≤ point ∧ point ≤ 0xdfff then none
    else (pointsText? rest).map (Char.ofNat point :: ·)

/-- The text of a chunk, if it has one. -/
def Chunk.text? (chunk : Chunk) : Option String :=
  (chunk.points.bind pointsText?).map String.ofList

end Phrasebook.Source

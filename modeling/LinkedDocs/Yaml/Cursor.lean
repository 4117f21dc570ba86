namespace LinkedDocs.Yaml

structure Cursor where
  rest : List Char
  column : Nat := 0
  /-- Whether a block may begin here: only blanks and dashes stand before the place on its line. -/
  fresh : Bool := true

/-- Whether a character, or the end of the text, sets off what stands before it. -/
def isGap : Option Char → Bool
  | none => true
  | some character => character == ' ' || character == '\t' || character == '\n'

/-- Line ends of other kinds as line feeds. -/
def unifyLineEnds : List Char → List Char
  | [] => []
  | '\r' :: '\n' :: rest => '\n' :: unifyLineEnds rest
  | '\r' :: rest => '\n' :: unifyLineEnds rest
  | character :: rest => character :: unifyLineEnds rest

def isPrintable (character : Char) : Bool :=
  let code := character.toNat
  code == 0x09 || code == 0x0A || code == 0x0D || (0x20 ≤ code && code ≤ 0x7E) || code == 0x85 ||
    (0xA0 ≤ code && code ≤ 0xFFFD && code != 0xFEFF) || 0x10000 ≤ code

namespace Cursor

/-- The place after some characters on the same line. -/
def advance (cursor : Cursor) (count : Nat) : Cursor :=
  { rest := cursor.rest.drop count, column := cursor.column + count, fresh := false }

/-- Skips blanks, comments and line ends. Tabs may not indent a block. -/
def skipFrom (flow comment fresh : Bool) (column : Nat) : List Char → Cursor
  | [] => ⟨[], column, fresh⟩
  | character :: rest =>
    if character = '\n' then skipFrom flow false true 0 rest
    else if comment then skipFrom flow true fresh (column + 1) rest
    else if character = ' ' then skipFrom flow false fresh (column + 1) rest
    else if character = '\t' && (flow || !fresh) then skipFrom flow false fresh (column + 1) rest
    else if character = '#' then skipFrom flow true fresh (column + 1) rest
    else ⟨character :: rest, column, fresh⟩

def skip (cursor : Cursor) (flow : Bool) : Cursor :=
  skipFrom flow false cursor.fresh cursor.column cursor.rest

def skipBlanks (cursor : Cursor) : Cursor :=
  let blanks := cursor.rest.takeWhile fun character => character == ' ' || character == '\t'
  cursor.advance blanks.length

def isAtEnd (cursor : Cursor) : Bool :=
  cursor.rest.isEmpty

/-- Whether three equal characters stand alone at the start of a line. -/
def isAtMark (cursor : Cursor) (character : Char) : Bool :=
  cursor.column == 0 && (List.replicate 3 character).isPrefixOf cursor.rest &&
    isGap (cursor.rest[3]?)

/-- Whether the document ends here. -/
def isAtDocumentEnd (cursor : Cursor) : Bool :=
  cursor.isAtEnd || cursor.isAtMark '-' || cursor.isAtMark '.'

/-- Whether an indicator stands here that is set off from what follows. -/
def isAtIndicator (cursor : Cursor) (indicator : Char) : Bool :=
  cursor.rest.head? == some indicator && isGap (cursor.rest[1]?)

end Cursor

end LinkedDocs.Yaml

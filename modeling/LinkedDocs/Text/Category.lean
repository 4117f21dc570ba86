import LinkedDocs.Text.Category.Letter
import LinkedDocs.Text.Category.Mark
import LinkedDocs.Text.Category.Numeral
import LinkedDocs.Text.Category.Punctuation
import LinkedDocs.Text.Category.Sign
import LinkedDocs.Text.Category.Invisible

namespace LinkedDocs

/-- White space, by the property of that name. -/
def isBlank (character : Char) : Bool :=
  inRanges
    [(0x09, 0x0D, 1), (0x20, 0x20, 1), (0x85, 0x85, 1), (0xA0, 0xA0, 1), (0x1680, 0x1680, 1),
     (0x2000, 0x200A, 1), (0x2028, 0x2029, 1), (0x202F, 0x202F, 1), (0x205F, 0x205F, 1),
     (0x3000, 0x3000, 1)] character

namespace Category

def isLetter (character : Char) : Bool :=
  inRanges uppercaseLetters character || inRanges lowercaseLetters character ||
    inRanges titlecaseLetters character || inRanges modifierLetters character ||
    inRanges otherLetters character

def isCasedLetter (character : Char) : Bool :=
  inRanges uppercaseLetters character || inRanges lowercaseLetters character ||
    inRanges titlecaseLetters character

def isMark (character : Char) : Bool :=
  inRanges nonspacingMarks character || inRanges spacingMarks character ||
    inRanges enclosingMarks character

def isNumeral (character : Char) : Bool :=
  inRanges decimalDigits character || inRanges letterNumerals character ||
    inRanges otherNumerals character

def isPunctuation (character : Char) : Bool :=
  inRanges connectors character || inRanges dashes character || inRanges openings character ||
    inRanges closings character || inRanges initialQuotes character ||
    inRanges finalQuotes character || inRanges otherPunctuation character

def isSymbol (character : Char) : Bool :=
  inRanges mathSymbols character || inRanges currencySymbols character ||
    inRanges modifierSymbols character || inRanges otherSymbols character

def isSeparator (character : Char) : Bool :=
  inRanges spaces character || inRanges lineSeparators character ||
    inRanges paragraphSeparators character

/-- Whether no category but the one of unassigned characters holds a character. -/
def isUnassigned (character : Char) : Bool :=
  !(isLetter character || isMark character || isNumeral character || isPunctuation character ||
    isSymbol character || isSeparator character || inRanges controls character ||
    inRanges formats character || inRanges privateUse character)

def isOther (character : Char) : Bool :=
  inRanges controls character || inRanges formats character || inRanges privateUse character ||
    isUnassigned character

/-- Enclosed letters, which are alphabetic symbols. -/
def isEnclosedLetter (character : Char) : Bool :=
  inRanges [(0x24B6, 0x24E9, 1), (0x1F130, 0x1F149, 1), (0x1F150, 0x1F169, 1),
    (0x1F170, 0x1F189, 1)] character

/-- Invisible characters that join what stands on both sides of them. -/
def isJoiner (character : Char) : Bool :=
  inRanges [(0x200C, 0x200D, 1)] character

/-- The characters of words: letters, marks, digits, connectors and joiners. -/
def isWord (character : Char) : Bool :=
  isLetter character || isMark character || inRanges decimalDigits character ||
    inRanges letterNumerals character || inRanges connectors character ||
    isEnclosedLetter character || isJoiner character

def isDigit (character : Char) : Bool :=
  inRanges decimalDigits character

/-- The classes of general categories, by abbreviation and long name in lower case. -/
def classes : List (List String × (Char → Bool)) :=
  [(["lu", "uppercaseletter"], inRanges uppercaseLetters),
   (["ll", "lowercaseletter"], inRanges lowercaseLetters),
   (["lt", "titlecaseletter"], inRanges titlecaseLetters),
   (["lm", "modifierletter"], inRanges modifierLetters),
   (["lo", "otherletter"], inRanges otherLetters),
   (["lc", "casedletter"], isCasedLetter),
   (["l", "letter"], isLetter),
   (["mn", "nonspacingmark"], inRanges nonspacingMarks),
   (["mc", "spacingmark"], inRanges spacingMarks),
   (["me", "enclosingmark"], inRanges enclosingMarks),
   (["m", "mark", "combiningmark"], isMark),
   (["nd", "decimalnumber", "digit"], inRanges decimalDigits),
   (["nl", "letternumber"], inRanges letterNumerals),
   (["no", "othernumber"], inRanges otherNumerals),
   (["n", "number"], isNumeral),
   (["pc", "connectorpunctuation"], inRanges connectors),
   (["pd", "dashpunctuation"], inRanges dashes),
   (["ps", "openpunctuation"], inRanges openings),
   (["pe", "closepunctuation"], inRanges closings),
   (["pi", "initialpunctuation"], inRanges initialQuotes),
   (["pf", "finalpunctuation"], inRanges finalQuotes),
   (["po", "otherpunctuation"], inRanges otherPunctuation),
   (["p", "punctuation", "punct"], isPunctuation),
   (["sm", "mathsymbol"], inRanges mathSymbols),
   (["sc", "currencysymbol"], inRanges currencySymbols),
   (["sk", "modifiersymbol"], inRanges modifierSymbols),
   (["so", "othersymbol"], inRanges otherSymbols),
   (["s", "symbol"], isSymbol),
   (["zs", "spaceseparator"], inRanges spaces),
   (["zl", "lineseparator"], inRanges lineSeparators),
   (["zp", "paragraphseparator"], inRanges paragraphSeparators),
   (["z", "separator"], isSeparator),
   (["cc", "control", "cntrl"], inRanges controls),
   (["cf", "format"], inRanges formats),
   (["co", "privateuse"], inRanges privateUse),
   (["cn", "unassigned"], isUnassigned),
   (["cs", "surrogate"], fun _ => false),
   (["c", "other"], isOther)]

def class? (name : String) : Option (Char → Bool) :=
  (classes.find? fun entry => entry.1.contains name).map Prod.snd

end Category

end LinkedDocs

import LinkedDocs.Selector.Parser

namespace LinkedDocs.Selector

inductive Argument where
  | literal (text : String)
  | symbol (symbol : Symbol)
deriving Repr

/-- A JSON value as an argument; what is no string or number is a query. -/
def Argument.ofJson : Json → Argument
  | .string text => .literal text
  | .number value => .literal value.toText
  | other => .symbol (.query other)

structure Template where
  text : String := ""
  symbols : SymbolTable := .empty
  /-- The number of arguments so far. -/
  slots : Nat := 0
deriving Repr

namespace Template

def append (template : Template) (chunk : String) : Template :=
  { template with text := template.text ++ chunk }

/-- Adds an argument, set off by blanks. -/
def splice (template : Template) (argument : Argument) : Template :=
  let slot := template.slots + 1
  match argument with
  | .literal text => { template with text := template.text ++ " " ++ text ++ " ", slots := slot }
  | .symbol symbol =>
    let token := slotToken slot
    { text := template.text ++ " " ++ token ++ " "
      symbols := template.symbols.insert token symbol
      slots := slot }

def parse (template : Template) : Except ParseError Selector :=
  parseWith template.symbols template.text

/-- The place where a template ends. -/
def ending (template : Template) : Nat :=
  template.text.utf8ByteSize

/-- Adds chunks with an argument before each one but the first of all. -/
def interleave (template : Template) (chunk : Nat) :
    List String → List Argument → Except ParseError Template
  | [], [] => .ok template
  | [], _ :: _ => .error ⟨.extraArguments, template.ending⟩
  | text :: chunks, arguments =>
    if chunk = 0 then interleave (template.append text) 1 chunks arguments
    else
      match arguments with
      | [] => .error ⟨.missingArgument chunk, template.ending⟩
      | argument :: arguments =>
        interleave ((template.splice argument).append text) (chunk + 1) chunks arguments

end Template

def build (chunks : List String) (arguments : List Argument) : Except ParseError Selector := do
  (← Template.interleave {} 0 chunks arguments).parse

end LinkedDocs.Selector

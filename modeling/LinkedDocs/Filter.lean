import LinkedDocs.Json.Comparison
import LinkedDocs.Json.Text
import LinkedDocs.Path
import LinkedDocs.Platform.Basic

/-!
Filter queries. A path may lead through arrays to several candidate values; equality with an array
holds for the array as a whole or for one of its elements; a null condition also accepts a missing
field.
-/

namespace LinkedDocs

inductive Operator where
  | eq
  | ne
  | isIn
  | notIn
  | gt
  | gte
  | lt
  | lte
  | present
  | size
  | elemMatch
  | regex
  | options
  | negation
deriving DecidableEq, Repr

namespace Operator

def all : List Operator :=
  [.eq, .ne, .isIn, .notIn, .gt, .gte, .lt, .lte, .present, .size, .elemMatch, .regex, .options,
    .negation]

def name : Operator → String
  | .eq => "$eq"
  | .ne => "$ne"
  | .isIn => "$in"
  | .notIn => "$nin"
  | .gt => "$gt"
  | .gte => "$gte"
  | .lt => "$lt"
  | .lte => "$lte"
  | .present => "$exists"
  | .size => "$size"
  | .elemMatch => "$elemMatch"
  | .regex => "$regex"
  | .options => "$options"
  | .negation => "$not"

def ofName? (name : String) : Option Operator :=
  all.find? fun operator => operator.name = name

end Operator

/-- The operators that join whole filter queries. -/
inductive Connective where
  | conjunction
  | disjunction
  | joint
deriving DecidableEq, Repr

namespace Connective

def name : Connective → String
  | .conjunction => "$and"
  | .disjunction => "$or"
  | .joint => "$nor"

def ofName? (name : String) : Option Connective :=
  [conjunction, disjunction, joint].find? fun connective => connective.name = name

def verdict (connective : Connective) (verdicts : List Bool) : Bool :=
  match connective with
  | .conjunction => verdicts.all id
  | .disjunction => verdicts.any id
  | .joint => !verdicts.any id

end Connective

/-- What is wrong with a filter query, an update or an array filter. -/
inductive QueryFault where
  | notAnObject (query : Json)
  | unsupportedConnective (name : String)
  | clausesExpected (connective : Connective)
  | unsupportedOperator (name : String)
  | listExpected (operator : Operator)
  | sizeExpected
  | patternExpected
  | invalidPattern
  | operatorsExpected
  | updateNotAnObject
  | pathsExpected (operator : String)
  | unsupportedUpdate (operator : String)
  | arrayFilterNotAnObject
  | unboundIdentifier (identifier : String)
  | fieldInArray (segment : String)
  | pullNotArray
  | pushNotArray
  | eachNotArray
deriving Repr

def QueryFault.message : QueryFault → String
  | .notAnObject query => "filter query must be an object, got <" ++ query.toText ++ ">"
  | .unsupportedConnective name => "unsupported top-level operator <" ++ name ++ ">"
  | .clausesExpected connective =>
    "<" ++ connective.name ++ "> expects an array of filter queries"
  | .unsupportedOperator name => "unsupported operator <" ++ name ++ ">"
  | .listExpected operator => "<" ++ operator.name ++ "> expects an array"
  | .sizeExpected => "<$size> expects a non-negative integer"
  | .patternExpected => "<$regex> expects a string"
  | .invalidPattern => "invalid <$regex>"
  | .operatorsExpected => "<$not> expects an operator object"
  | .updateNotAnObject => "update must be an object of update operators"
  | .pathsExpected operator => "<" ++ operator ++ "> expects an object of paths"
  | .unsupportedUpdate operator => "unsupported update operator <" ++ operator ++ ">"
  | .arrayFilterNotAnObject => "array filters must be objects"
  | .unboundIdentifier identifier =>
    "no array filter found for identifier <" ++ identifier ++ ">"
  | .fieldInArray segment => "can't create field <" ++ segment ++ "> in an array element"
  | .pullNotArray => "<$pull> can only target arrays"
  | .pushNotArray => "<$push> can only target arrays"
  | .eachNotArray => "<$each> expects an array"

namespace Filter

/-- A value found on a path, or `none` for a missing field. -/
abbrev Candidate := Option Json

/-- Stands for a missing field where a path found nothing. -/
def orMissing (found : List Candidate) : List Candidate :=
  if found.isEmpty then [none] else found

/-- The candidates at a path. In an array an index leads to an element, and every subdocument is
searched for the whole path. -/
def candidates : List String → Json → List Candidate
  | [], value => [some value]
  | segment :: rest, value =>
    let below (fields : List (String × Json)) : List Candidate :=
      match lookupName segment fields with
      | some child => candidates rest child
      | none => [none]
    match value with
    | .object fields => below fields
    | .array items =>
      let indexed :=
        match (index? segment).bind fun position => items[position]? with
        | some item => candidates rest item
        | none => []
      orMissing (indexed ++ items.flatMap fun
        | .object fields => below fields
        | _ => [])
    | _ => [none]

def lookup (document : Json) (path : String) : List Candidate :=
  candidates (splitPath path) document

/-- Whether a condition is a nonempty object of operators only. -/
def isOperatorObject : Json → Bool
  | .object fields => !fields.isEmpty && fields.all fun field => isMarked field.1
  | _ => false

/-- Whether a candidate equals a target. Null accepts a missing field, and an array is accepted for
any of its elements. -/
def equalsTarget (target : Json) : Candidate → Bool
  | none => target.isNull
  | some (.array items) =>
    (Json.array items).sameValue target || items.any fun item => item.sameValue target
  | some value => value.sameValue target

def anyEquals (candidates : List Candidate) (target : Json) : Bool :=
  candidates.any (equalsTarget target)

def anyAmong (candidates : List Candidate) (targets : List Json) : Bool :=
  candidates.any fun candidate => targets.any fun target => equalsTarget target candidate

/-- Whether a test holds for a candidate or for an element of one. -/
def anyValue (candidates : List Candidate) (test : Json → Bool) : Bool :=
  candidates.any fun
    | none => false
    | some (.array items) => test (.array items) || items.any test
    | some value => test value

def truthy : Json → Bool
  | .bool value => value
  | .null => false
  | .number value => !value.sameValue (.int 0)
  | _ => true

def listOf (operator : Operator) (argument : Json) : Except QueryFault (List Json) :=
  match argument with
  | .array items => .ok items
  | _ => .error (.listExpected operator)

/-- The letters that the options of a pattern may hold; others mean nothing. -/
def patternFlags (options : String) : PatternFlags :=
  let letters := options.toList
  { ignoreCase := letters.contains 'i'
    multiLine := letters.contains 'm'
    dotMatchesNewLine := letters.contains 's'
    verbose := letters.contains 'x' }

variable [Platform]

/-- The test of a pattern, compiled with the options that stand beside it. -/
def patternOf (siblings : List (String × Json)) (argument : Json) :
    Except QueryFault (String → Bool) :=
  match argument with
  | .string pattern =>
    let options := ((lookupName Operator.options.name siblings).bind Json.string?).getD ""
    match Platform.compile? (patternFlags options) pattern with
    | some test => .ok test
    | none => .error .invalidPattern
  | _ => .error .patternExpected

/-- Whether an operator holds that looks at the candidates only. The two operators that evaluate a
further condition hold here for nothing. -/
def plainHolds (siblings : List (String × Json)) (candidates : List Candidate)
    (operator : Operator) (argument : Json) : Except QueryFault Bool :=
  let ordered (accepted : Ordering → Bool) : Except QueryFault Bool :=
    .ok (anyValue candidates fun value => (value.order? argument).any accepted)
  match operator with
  | .eq => .ok (anyEquals candidates argument)
  | .ne => .ok (!anyEquals candidates argument)
  | .isIn => (listOf operator argument).map (anyAmong candidates)
  | .notIn => (listOf operator argument).map fun targets => !anyAmong candidates targets
  | .gt => ordered fun order => order == .gt
  | .gte => ordered fun order => order != .lt
  | .lt => ordered fun order => order == .lt
  | .lte => ordered fun order => order != .gt
  | .present => .ok (candidates.any Option.isSome == truthy argument)
  | .size =>
    match argument.nat? with
    | some size => .ok (candidates.any fun
        | some (.array items) => items.length == size
        | _ => false)
    | none => .error .sizeExpected
  | .regex => do
    let test ← patternOf siblings argument
    return anyValue candidates fun value => value.string?.any test
  | .options => .ok true
  | .elemMatch => .ok false
  | .negation => .ok false

/-- Whether a test accepts an element of an array; the test is run up to the first element of each
array that it accepts. -/
def anyElement (test : Json → Except QueryFault Bool) : List Json → Except QueryFault Bool
  | [] => .ok false
  | item :: rest => do
    if ← test item then return true else anyElement test rest

/-- Whether a test accepts an element of an array among the candidates. -/
def anyArray (test : Json → Except QueryFault Bool) :
    List Candidate → Except QueryFault Bool
  | [] => .ok false
  | some (.array items) :: rest => do
    let found ← anyElement test items
    let others ← anyArray test rest
    return found || others
  | _ :: rest => anyArray test rest

mutual

/-- Whether a document matches a filter query. Fields are tried in order up to the first one that
does not hold; what comes after it is not looked at. -/
def accepts (document : Json) (filter : Json) : Except QueryFault Bool :=
  match filter with
  | .object fields => acceptsFields document fields
  | other => .error (.notAnObject other)
termination_by structural filter

def acceptsFields (document : Json) (fields : List (String × Json)) : Except QueryFault Bool :=
  match fields with
  | [] => .ok true
  | (name, condition) :: rest => do
    let holds ←
      match Connective.ofName? name with
      | some connective => connective.verdict <$> clauseVerdicts document connective condition
      | none =>
        if isMarked name then .error (.unsupportedConnective name)
        else holdsFor (lookup document name) condition
    if holds then acceptsFields document rest else return false
termination_by structural fields

/-- The verdicts of all clauses of a connective. -/
def clauseVerdicts (document : Json) (connective : Connective) (clauses : Json) :
    Except QueryFault (List Bool) :=
  match clauses with
  | .array clauses => verdicts document clauses
  | _ => .error (.clausesExpected connective)
termination_by structural clauses

def verdicts (document : Json) (clauses : List Json) : Except QueryFault (List Bool) :=
  match clauses with
  | [] => .ok []
  | clause :: rest => do
    let verdict ← accepts document clause
    let others ← verdicts document rest
    return verdict :: others
termination_by structural clauses

def holdsFor (candidates : List Candidate) (condition : Json) : Except QueryFault Bool :=
  match condition with
  | .object fields =>
    if isOperatorObject (.object fields) then operatorsHold candidates fields fields
    else .ok (anyEquals candidates (.object fields))
  | .null => .ok (anyEquals candidates .null)
  | .bool value => .ok (anyEquals candidates (.bool value))
  | .number value => .ok (anyEquals candidates (.number value))
  | .string value => .ok (anyEquals candidates (.string value))
  | .array items => .ok (anyEquals candidates (.array items))
termination_by structural condition

def operatorsHold (candidates : List Candidate) (siblings operators : List (String × Json)) :
    Except QueryFault Bool :=
  match operators with
  | [] => .ok true
  | (name, argument) :: rest => do
    let holds ←
      match Operator.ofName? name with
      | none => .error (.unsupportedOperator name)
      | some .elemMatch =>
        anyArray (fun item =>
          if isOperatorObject argument then holdsFor [some item] argument
          else if item.isObject then accepts item argument
          else .ok false) candidates
      | some .negation =>
        if isOperatorObject argument then (!·) <$> holdsFor candidates argument
        else .error .operatorsExpected
      | some operator => plainHolds siblings candidates operator argument
    if holds then operatorsHold candidates siblings rest else return false
termination_by structural operators

end

end Filter

end LinkedDocs

import Reenact.Code.Snippet
import Reenact.Text.Quoted
import Reenact.Setup.Naming

/-!
# Code for objects, calls and side effects

Writes what was recorded as code. An object with a name is written as its name, every other one as
the code that makes it, which contains the code of what it needs. A `Writer` says how an object is
written inside other code; the functions here are given one, and `construct` ties the knot. An
object whose code would contain itself has none (`Fault.endless`): a path through different objects
is no longer than the recording has objects.
-/

namespace Reenact.Setup

/-- How an object is written inside other code. -/
abbrev Writer := ObjectId → Except Fault Snippet

/-- The objects in order with commas between them. -/
def writeList (write : Writer) (ids : List ObjectId) : Except Fault Snippet := do
  return .join ", " (← ids.mapM write)

def writeSequence (write : Writer) (shape : Shape) (contained : List ObjectId) :
    Except Fault Snippet := do
  let code := (← writeList write contained).wrap (shape.format contained.length)
  return code.addImports shape.import?.toList

/-- A key and its value. -/
def writeEntry (write : Writer) (entry : ObjectId × ObjectId) : Except Fault Snippet := do
  return (← write entry.1).followedBy ": " (← write entry.2)

/-- The parameter name that a key holds, if it is the literal of one. -/
def keywordOf (r : Recording) (key : ObjectId) : Except Fault (Option String) := do
  let o ← r.object key
  match o.kind with
  | .immutable code _ => return (Text.Quoted.identifier? code.toList).map String.ofList
  | _ => return none

/-- The entries of a mapping whose keys are all parameter names. -/
def keywordEntries (r : Recording) :
    List (ObjectId × ObjectId) → Except Fault (Option (List (String × ObjectId)))
  | [] => .ok (some [])
  | (key, value) :: rest => do
    match ← keywordOf r key with
    | none => return none
    | some name =>
      match ← keywordEntries r rest with
      | none => return none
      | some entries => return some ((name, value) :: entries)

/-- Whether one keyword argument comes before another: by name, then by object. -/
def comesBefore (a b : String × ObjectId) : Bool :=
  decide (a.1 < b.1) || (a.1 == b.1 && decide (a.2.index ≤ b.2.index))

/-- A mapping as keyword arguments in the order of their names, if all its keys are parameter
names. -/
def writeKeywords (r : Recording) (write : Writer) (id : ObjectId) :
    Except Fault (Option (List Snippet)) := do
  let o ← r.object id
  match o.kind with
  | .map mapping =>
    match ← keywordEntries r mapping with
    | none => return none
    | some entries =>
      let sorted := entries.mergeSort comesBefore
      return some (← sorted.mapM fun entry => do
        return (← write entry.2).surround (entry.1 ++ "=") "")
  | _ => return none

/-- The arguments of a call as far as they are written. -/
structure ArgumentList where
  positional : List Snippet
  keyword : List Snippet
  /-- A sequence to spread. -/
  starred : Option Snippet
  /-- A mapping to spread. -/
  doubleStarred : Option Snippet
  /-- Whether a parameter without argument was passed over. -/
  hasSkipped : Bool

namespace ArgumentList

def empty : ArgumentList := ⟨[], [], none, none, false⟩

/-- All arguments in the order of a call. -/
def all (a : ArgumentList) : List Snippet :=
  a.positional ++ a.keyword ++ a.starred.toList ++ a.doubleStarred.toList

end ArgumentList

/-- The kinds of parameters. -/
inductive ParamKind where
  | plain
  | extra
  | keywords
  deriving DecidableEq, Repr

/-- The kind of a parameter, by the stars in front of its name. -/
def paramKind (param : String) : ParamKind :=
  match param.toList with
  | '*' :: '*' :: _ => .keywords
  | '*' :: _ => .extra
  | _ => .plain

/-- The name of a parameter without stars. -/
def paramName (param : String) : String :=
  String.ofList (param.toList.dropWhile (· == '*'))

/-- Adds the argument of one parameter. Further arguments without a name of their own are written
out where they can be, and spread otherwise. -/
def addArgument (r : Recording) (names : Naming) (write : Writer) (a : ArgumentList)
    (param : String) (value : ObjectId) : Except Fault ArgumentList :=
  match paramKind param with
  | .keywords => do
    let keywords ← writeKeywords r write value
    match names.get? value, keywords with
    | some name, _ => return { a with doubleStarred := some (.plain ("**" ++ name)) }
    | none, some arguments => return { a with keyword := a.keyword ++ arguments }
    | none, none => return { a with doubleStarred := some ((← write value).surround "**" "") }
  | .extra => do
    let o ← r.object value
    match names.get? value, o.kind with
    | some name, _ => return { a with starred := some (.plain ("*" ++ name)) }
    | none, .sequence _ contained =>
      return { a with positional := a.positional ++ (← contained.mapM write) }
    | none, _ => return { a with starred := some ((← write value).surround "*" "") }
  | .plain => do
    let argument ← write value
    if a.hasSkipped then
      return { a with keyword := a.keyword ++ [argument.surround (param ++ "=") ""] }
    else return { a with positional := a.positional ++ [argument] }

/-- The arguments for parameters in order. Those behind a parameter without argument are passed by
keyword. -/
def writeArguments (r : Recording) (names : Naming) (write : Writer) (input : Arguments)
    (params : List String) : Except Fault ArgumentList :=
  params.foldlM (fun a param =>
    match input.get? (paramName param) with
    | none => .ok { a with hasSkipped := true }
    | some value => addArgument r names write a param value) ArgumentList.empty

/-- A call of `callee` with recorded arguments. -/
def writeCall (r : Recording) (names : Naming) (write : Writer) (callee : Snippet)
    (input : Arguments) (params : List String) : Except Fault Snippet := do
  let arguments ← writeArguments r names write input params
  return (callee.followedBy "(" (.join ", " arguments.all)).surround "" ")"

/-- The code that makes an instance of a project class. -/
def writeUser (p : Project) (r : Recording) (names : Naming) (write : Writer) (cls : ClassId)
    (initCall : Option CallId) : Except Fault Snippet := do
  let c ← p.class? cls
  let code ←
    match initCall with
    | none => pure (Snippet.plain (c.name ++ "()"))
    | some init =>
      let call ← r.call init
      writeCall r names write (.plain c.name) call.input (← p.paramsOf call.definition)
  return code.addImport (.member c.module c.name)

/-- The code that makes a generator. -/
def writeGenerator (p : Project) (r : Recording) (names : Naming) (write : Writer)
    (activation : Activation) : Except Fault Snippet := do
  let name ← p.nameOf activation.definition
  let params ← p.paramsOf activation.definition
  match activation.maker with
  | .function _ =>
    let code ← writeCall r names write (.plain name) activation.args params
    return code.addImport (.member (← p.moduleOf activation.definition) name)
  | .userObject owner =>
    let callee := (← write owner).surround "" ("." ++ name)
    writeCall r names write callee activation.args params

/-- The code that makes an object, whether or not it has a name. -/
def writeDefinition (p : Project) (r : Recording) (names : Naming) (write : Writer)
    (id : ObjectId) : Except Fault Snippet := do
  let o ← r.object id
  match o.kind with
  | .immutable code imports => return .withImports code imports
  | .sequence shape contained => writeSequence write shape contained
  | .map mapping =>
    return (Snippet.join ", " (← mapping.mapM (writeEntry write))).surround "\x7b" "\x7d"
  | .exception args =>
    return ((← writeList write args).surround (o.typeName ++ "(") ")").addImports
      o.typeImport?.toList
  | .library format args imports =>
    return ((← writeList write args).wrap format).addImports imports.items
  | .unknown hint => return .gap hint
  | .user cls initCall _ => writeUser p r names write cls initCall
  | .generator none _ => return .gap "generator"
  | .generator (some activation) _ => writeGenerator p r names write activation

/-- The name of an object, or the code that makes it, nested at most `depth` deep. -/
def constructWithin (p : Project) (r : Recording) (names : Naming) : Nat → Writer
  | depth, id =>
    match names.get? id with
    | some name => .ok (.plain name)
    | none =>
      match depth with
      | 0 => .error .endless
      | depth + 1 => writeDefinition p r names (constructWithin p r names depth) id

/-- The name of an object, or the code that makes it. -/
def construct (p : Project) (r : Recording) (names : Naming) : Writer :=
  constructWithin p r names (r.objects.size + 1)

/-- The code that makes an object, whether or not it has a name. -/
def define (p : Project) (r : Recording) (names : Naming) (id : ObjectId) : Except Fault Snippet :=
  writeDefinition p r names (construct p r names) id

/-- The statement that repeats a mutation. Items of mappings are set and deleted in brackets. -/
def writeMutation (write : Writer) (op : Mutation) (receiver : ObjectId) (args : List ObjectId) :
    Except Fault Snippet := do
  let target ← write receiver
  match op, args with
  | .dictSetItem, [key, value] =>
    return (target.followedBy "[" (← write key)).followedBy "] = " (← write value)
  | .dictDelItem, [key] => return (target.followedBy "[" (← write key)).surround "del " "]"
  | _, _ =>
    return ((target.surround "" ("." ++ op.methodName ++ "(")).followedBy ""
      (← writeList write args)).surround "" ")"

/-- The statement that repeats a change. -/
def writeChange (write : Writer) : Change → Except Fault Snippet
  | .mutation op receiver args => writeMutation write op receiver args
  | .globalRead module name _ =>
    .ok ((Snippet.plain (module ++ "." ++ name)).addImport (.module module))
  | .globalRebind module name value => do
    let target := (Snippet.plain (module ++ "." ++ name ++ " = ")).addImport (.module module)
    return target.followedBy "" (← write value)
  | .attributeRebind target name value => do
    return (← write target).followedBy ("." ++ name ++ " = ") (← write value)

/-- The statement that repeats a side effect. -/
def renderEffect (p : Project) (r : Recording) (names : Naming) (id : EffectId) :
    Except Fault Snippet := do
  let e ← r.effect id
  writeChange (construct p r names) e.change

/-- A call of something with recorded arguments. -/
def renderCall (p : Project) (r : Recording) (names : Naming) (callee : String)
    (input : Arguments) (params : List String) : Except Fault Snippet :=
  writeCall r names (construct p r names) (.plain callee) input params

end Reenact.Setup

set_option autoImplicit false

namespace PathExpr.Command

inductive Request where
  | version
  | check (expression : String) (normalize : Bool)
  | evaluate (expression : String) (input : Option String) (pretty normalize : Bool)
deriving Repr, DecidableEq

structure Options where
  expression : Option String
  input : Option String
  pretty : Bool
  noReduce : Bool
deriving Repr, DecidableEq

namespace Options

def none : Options := ⟨.none, .none, false, false⟩

-- Nothing may be given twice.

def setExpression (o : Options) (text : String) : Option Options :=
  if o.expression.isNone then some { o with expression := some text } else .none

def setInput (o : Options) (text : String) : Option Options :=
  if o.input.isNone then some { o with input := some text } else .none

def setPretty (o : Options) : Option Options :=
  if o.pretty then .none else some { o with pretty := true }

def setNoReduce (o : Options) : Option Options :=
  if o.noReduce then .none else some { o with noReduce := true }

end Options

/-- What an argument says about the options, and whether the value of the input is still to come. -/
structure Step where
  options : Options
  awaitsInput : Bool

def Step.done (o : Options) : Step := ⟨o, false⟩

/-- A long option, without its two minus signs. -/
def longOption (evaluates : Bool) (o : Options) (name : List Char) : Option Step :=
  let key := String.ofList (name.takeWhile (· != '='))
  let value := (name.dropWhile (· != '=')).tail?.map String.ofList
  match key, value with
  | "no-reduce", none => o.setNoReduce.map .done
  | "pretty", none => if evaluates then o.setPretty.map .done else none
  | "input", some text => if evaluates then (o.setInput text).map .done else none
  | "input", none => if evaluates then some ⟨o, true⟩ else none
  | _, _ => none

/-- Short options, without their minus sign. The rest of the argument is the value of an option
that takes one. -/
def shortOptions (o : Options) : List Char → Option Step
  | [] => some (.done o)
  | 'p' :: rest => do shortOptions (← o.setPretty) rest
  | ['i'] => some ⟨o, true⟩
  | 'i' :: '=' :: rest => (o.setInput (String.ofList rest)).map .done
  | 'i' :: rest => (o.setInput (String.ofList rest)).map .done
  | _ => none

/-- Reads the expression and the options of a command, in any order. An argument that begins with a
minus sign is an option, unless it is nothing but that sign or comes behind `--`. -/
def readOptions (evaluates : Bool) : (plain awaitsInput : Bool) → Options → List String →
    Option Options
  | _, false, o, [] => some o
  | _, true, _, [] => none
  | true, false, o, arg :: rest => do readOptions evaluates true false (← o.setExpression arg) rest
  | true, true, _, _ :: _ => none
  | false, awaitsInput, o, arg :: rest =>
      match arg.toList, awaitsInput with
      | ['-', '-'], false => readOptions evaluates true false o rest
      | '-' :: '-' :: name, false => do
          let step ← longOption evaluates o name
          readOptions evaluates false step.awaitsInput step.options rest
      | '-' :: c :: letters, false => do
          let step ← if evaluates then shortOptions o (c :: letters) else none
          readOptions evaluates false step.awaitsInput step.options rest
      | '-' :: _ :: _, true => none
      | _, true => do readOptions evaluates false false (← o.setInput arg) rest
      | _, false => do readOptions evaluates false false (← o.setExpression arg) rest

/-- The request that the arguments make, if they make one. -/
def Request.ofArguments : List String → Option Request
  | [] => none
  | command :: rest =>
      match command with
      | "check" => do
          let o ← readOptions false false false .none rest
          return .check (← o.expression) (!o.noReduce)
      | "eval" => do
          let o ← readOptions true false false .none rest
          return .evaluate (← o.expression) o.input o.pretty (!o.noReduce)
      | "--version" => some .version
      | _ => if command.toList.take 2 = ['-', 'V'] then some .version else none

end PathExpr.Command

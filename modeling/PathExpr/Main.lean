import PathExpr.Command.Response

set_option autoImplicit false

open PathExpr Command

def PathExpr.Command.readStandardInput : IO StandardInput := do
  let stdin ← IO.getStdin
  if ← stdin.isTty then return .terminal
  try return .text (← stdin.readToEnd)
  catch error => return .failed (toString error)

def main (args : List String) : IO UInt32 := do
  let readsInput :=
    match Request.ofArguments args with
    | some request => request.readsInput
    | none => false
  let stdin ← if readsInput then readStandardInput else pure .terminal
  let response := respond .standard stdin args
  IO.print response.output
  IO.eprint response.errors
  return response.code

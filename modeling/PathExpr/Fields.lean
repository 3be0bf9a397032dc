set_option autoImplicit false

namespace PathExpr.Fields

variable {α : Type}

/-- Adds an entry where its name belongs, in place of the one of the same name. -/
def insert (name : String) (entry : α) : List (String × α) → List (String × α)
  | [] => [(name, entry)]
  | first :: rest =>
      if name < first.1 then (name, entry) :: first :: rest
      else if name = first.1 then (name, entry) :: rest
      else first :: insert name entry rest

def ofList (entries : List (String × α)) : List (String × α) :=
  entries.foldl (fun fields entry => insert entry.1 entry.2 fields) []

end PathExpr.Fields

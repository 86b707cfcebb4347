/-!
# Records

How a value with named fields is shown: its name, then its fields between braces. Fields that are
left out are stood for by two dots at the end.
-/

set_option autoImplicit false

namespace DemandPaging.Record

/-- A record with all its fields shown. -/
def text (name : String) (fields : List (String × String)) : String :=
  name ++ " \x7b " ++ ", ".intercalate (fields.map fun f => f.1 ++ ": " ++ f.2) ++ " \x7d"

/-- A record with some of its fields left out. -/
def textOpen (name : String) (fields : List (String × String)) : String :=
  name ++ " \x7b " ++ ", ".intercalate ((fields.map fun f => f.1 ++ ": " ++ f.2) ++ [".."])
    ++ " \x7d"

end DemandPaging.Record

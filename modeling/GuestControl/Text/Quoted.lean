/-!
# Quoted literals

A literal stands between single quotes, and a single quote inside it is
written twice.
-/

namespace GuestControl.Text.Quoted

def quote : Char := '\x27'

def encode : List Char → List Char
  | [] => []
  | c :: rest => if c = quote then quote :: quote :: encode rest else c :: encode rest

def literal (s : String) : String := String.ofList (quote :: (encode s.toList ++ [quote]))

end GuestControl.Text.Quoted

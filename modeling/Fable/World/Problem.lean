import Fable.Json.Reader
import Fable.Text.Quoted

namespace Fable.World

inductive Step
  | field (name : String)
  | index (i : Int)
  deriving DecidableEq, Repr

inductive Form
  | value
  | json
  deriving DecidableEq, Repr

inductive Expected
  | text
  | present
  | list (form : Form)
  | dictionary (form : Form)
  | definition (form : Form) (name : String)
  | whole
  | wholeText
  | wholeFloat
  | finiteFloat
  | smallWhole
  | json
  deriving DecidableEq, Repr

namespace Expected

def code : Expected → String
  | text => "string_type"
  | present => "missing"
  | list _ => "list_type"
  | dictionary _ => "dict_type"
  | definition .. => "model_type"
  | whole => "int_type"
  | wholeText => "int_parsing"
  | wholeFloat => "int_from_float"
  | finiteFloat => "finite_number"
  | smallWhole => "int_parsing_size"
  | json => "json_invalid"

def sentence? : Expected → Option String
  | text => some "Input should be a valid string"
  | present => some "Field required"
  | list .value => some "Input should be a valid list"
  | list .json => some "Input should be a valid array"
  | dictionary .value => some "Input should be a valid dictionary"
  | definition .value name => some ("Input should be a valid dictionary or instance of " ++ name)
  | dictionary .json | definition .json _ => some "Input should be an object"
  | whole => some "Input should be a valid integer"
  | wholeText => some "Input should be a valid integer, unable to parse string as an integer"
  | wholeFloat => some "Input should be a valid integer, got a number with a fractional part"
  | finiteFloat => some "Input should be a finite number"
  | smallWhole => some "Unable to parse input string as an integer, exceeded maximum size"
  | json => none

end Expected

structure Issue where
  path : List Step
  expected : Expected
  deriving DecidableEq, Repr

inductive Refusal
  | missing
  | notFolder
  | folder
  | tooLong
  deriving DecidableEq, Repr

def Refusal.text : Refusal → String
  | missing => "[Errno 2] No such file or directory"
  | notFolder => "[Errno 20] Not a directory"
  | folder => "[Errno 21] Is a directory"
  | tooLong => "[Errno 36] File name too long"

inductive Problem
  | unreadable (path : String) (why : Refusal)
  | notJson (path : String) (complaint : String)
  | notObject (path : String)
  | invalid (issues : List Issue)
  | cycle (text : String)
  | undefinedStart (room : String)
  deriving DecidableEq, Repr

namespace Problem

def text : Problem → String
  | unreadable path why => "cannot read " ++ path ++ ": " ++ why.text ++ ": " ++ Text.quote path
  | notJson path complaint => path ++ " is not valid JSON: " ++ complaint
  | notObject path => path ++ " must hold a JSON object"
  | invalid _ => "invalid world definition"
  | cycle t => t
  | undefinedStart room => "start room " ++ room ++ " is not defined"

end Problem

end Fable.World

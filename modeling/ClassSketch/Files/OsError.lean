namespace ClassSketch.Files

inductive OsError where
  | notFound
  | alreadyExists
  | noSuchDevice
  | notDirectory
  | isDirectory
  | invalidArgument
  | nameTooLong
  | other (code : Nat) (text : String)
deriving DecidableEq, Repr

namespace OsError

def code : OsError → Nat
  | notFound => 2
  | alreadyExists => 17
  | noSuchDevice => 19
  | notDirectory => 20
  | isDirectory => 21
  | invalidArgument => 22
  | nameTooLong => 36
  | other code _ => code

def text : OsError → String
  | notFound => "No such file or directory"
  | alreadyExists => "File exists"
  | noSuchDevice => "No such device"
  | notDirectory => "Not a directory"
  | isDirectory => "Is a directory"
  | invalidArgument => "Invalid argument"
  | nameTooLong => "File name too long"
  | other _ text => text

def message (e : OsError) : String := s!"{e.text} (os error {e.code})"

end OsError

end ClassSketch.Files

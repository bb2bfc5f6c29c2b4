import Chomsky.Text.Basic

/-!
# Faults of input and output

Why a file could not be read or a text not be written.
-/

namespace Chomsky

/-- What the system answers about a file. -/
inductive SystemFault where
  | missing
  | notDirectory
  | isDirectory
  | accessDenied
  deriving DecidableEq, Repr

namespace SystemFault

def code : SystemFault → Nat
  | missing => 2
  | accessDenied => 13
  | notDirectory => 20
  | isDirectory => 21

def kind : SystemFault → Text
  | missing => "NotFound".toList
  | accessDenied => "PermissionDenied".toList
  | notDirectory => "NotADirectory".toList
  | isDirectory => "IsADirectory".toList

def description : SystemFault → Text
  | missing => "No such file or directory".toList
  | accessDenied => "Permission denied".toList
  | notDirectory => "Not a directory".toList
  | isDirectory => "Is a directory".toList

end SystemFault

inductive Fault where
  | system (f : SystemFault)
  | notUtf8
  /-- The receiver takes no more bytes. -/
  | sinkFull
  | other (description : Text)
  deriving DecidableEq, Repr

namespace Fault

def message : Fault → Text
  | system f => f.description ++ " (os error ".toList ++ Text.ofNat f.code ++ ")".toList
  | notUtf8 => "stream did not contain valid UTF-8".toList
  | sinkFull => "sink full".toList
  | other description => description

end Fault

end Chomsky

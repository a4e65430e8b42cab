/-!
What can go wrong between a program and the files it reads and writes, and what is said about it.
-/

namespace PolicyDiagram

inductive IoFault where
  | notFound
  | notADirectory
  | isADirectory
  | nameTooLong
  | nulInName
  | tooManyLinks
  | notUtf8
  | noRoom
  | other (text : String)
deriving DecidableEq, Repr, Inhabited

def IoFault.message : IoFault → String
  | notFound => "No such file or directory (os error 2)"
  | notADirectory => "Not a directory (os error 20)"
  | isADirectory => "Is a directory (os error 21)"
  | nameTooLong => "File name too long (os error 36)"
  | nulInName => "file name contained an unexpected NUL byte"
  | tooManyLinks => "Too many levels of symbolic links (os error 40)"
  | notUtf8 => "stream did not contain valid UTF-8"
  | noRoom => "failed to write whole buffer"
  | other text => text

end PolicyDiagram

/-
  JvmClass.Name — names of members and classes.

  Class files write a class name with `/` between its segments, and the model with `.`
  (`dotted`). From version 49 a name only has to avoid the characters that would make it
  ambiguous. Before, member names are identifiers and so are the segments of class names, unless
  the caller relaxes that for class names.
-/

import JvmClass.Descriptor.Valid
import JvmClass.Options
import JvmClass.Text.Letter
import JvmClass.Version

namespace JvmClass

/-- The name of constructors. -/
def initName : String := "<init>"

/-- The name of static initializers. -/
def clinitName : String := "<clinit>"

def objectName : String := "java.lang.Object"

def classClassName : String := "java.lang.Class"

def stringName : String := "java.lang.String"

def cloneableName : String := "java.lang.Cloneable"

def serializableName : String := "java.io.Serializable"

def throwableName : String := "java.lang.Throwable"

def dottedChar (c : Char) : Char := if c = '/' then '.' else c

/-- The text with `.` for every `/`. -/
def dotted (s : String) : String := s.map dottedChar

/-! ## Members -/

def isIdentifierStart (c : Char) : Bool := Text.isLetter c || c == '$' || c == '_'

def isIdentifierPart (c : Char) : Bool := Text.isLetterOrNumber c || c == '$' || c == '_'

def isIdentifier : List Char → Bool
  | [] => false
  | c :: rest => isIdentifierStart c && rest.all isIdentifierPart

/-- Characters that no member name holds. -/
def memberReserved : List Char := ['.', ';', '[', '/']

/-- Characters that no method name holds; constructors and static initializers are told apart
    by them. -/
def methodReserved : List Char := memberReserved ++ ['<', '>']

def isNameAvoiding (reserved : List Char) (version : Version) (s : String) : Bool :=
  !s.toList.isEmpty && s.toList.all (!reserved.contains ·) &&
    (version.hasJava5Features || isIdentifier s.toList)

def isValidFieldName (s : String) (version : Version) : Bool :=
  isNameAvoiding memberReserved version s

/-- The names of constructors and static initializers do not count. -/
def isValidMethodName (s : String) (version : Version) : Bool :=
  isNameAvoiding methodReserved version s

/-! ## Classes -/

/-- `c` may follow `prev` in a class name. -/
def mayFollow (strict : Bool) (prev c : Char) : Bool :=
  if strict then isIdentifierPart c || c == '/' && prev != '/'
  else c != '.' && c != ';' && c != '[' && !(c == '/' && prev == '/')

/-- Each character may follow the one before it, the first one `prev`. -/
def isClassNameTail (strict : Bool) (prev : Char) : List Char → Bool
  | [] => true
  | c :: rest => mayFollow strict prev c && isClassNameTail strict c rest

/-- The class name in the descriptor of an array, with the character before it; an array of a
    base type has its letter there. -/
def arrayElementName (s : List Char) : Char × List Char :=
  match s.dropWhile (· == '[') with
  | 'L' :: rest => if rest.getLast? = some ';' then ('L', rest.dropLast) else ('[', 'L' :: rest)
  | rest => ('[', rest)

/-- What a class constant may hold: a class name, or an array type as its field descriptor. -/
def isValidClassName (s : String) (version : Version) (options : Options) : Bool :=
  let strict := !version.hasJava5Features && !options.relaxedClassNames
  match s.toList with
  | [] => false
  | '[' :: rest =>
    let element := arrayElementName rest
    isFieldDescriptor ('[' :: rest) && isClassNameTail strict element.1 element.2
  | first :: rest =>
    if strict then
      (isIdentifierStart first || first == '/') && isClassNameTail true first rest
    else isClassNameTail false '\x00' (first :: rest)

end JvmClass

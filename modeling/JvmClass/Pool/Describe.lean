/-
  JvmClass.Pool.Describe — resolved pools as diagnostics show them.

  A pool is shown as its constants by slot, each by its kind and what the class file says about
  it; what linking has found out is left out.
-/

import JvmClass.Pool.Basic

namespace JvmClass

/-- A member with its fields spelled out. -/
def MemberRef.describe (m : MemberRef) : String :=
  "MemberRef \x7b class: ClassConstantIndex(ConstantIndex(" ++ toString m.cls.toNat ++
    ")), class_name: " ++ Text.quoted m.className ++ ", name: " ++ Text.quoted m.name ++
    ", descriptor: " ++ Text.quoted m.descriptor ++ " \x7d"

def Entry.describe {T F M : Type} : Entry T F M → String
  | .vacant => "empty"
  | .text value _ => s!"Utf8({Text.quoted value})"
  | .cls item => s!"Class({item.name})"
  | .literal value => s!"{value.kindName}({value.text})"
  | .string value => s!"String({Text.quoted value})"
  | .live _ => "LiveObject"
  | .nameAndType name descriptor => s!"NameAndType(#{name.toNat}, #{descriptor.toNat})"
  | .field member _ => s!"Fieldref({member.describe})"
  | .method item => s!"Methodref({item.member.describe})"
  | .interfaceMethod item => s!"InterfaceMethodref({item.member.describe})"
  | .methodHandle kind reference => s!"MethodHandle({kind.name}, #{reference.toNat})"
  | .methodType descriptor _ => s!"MethodType({descriptor})"
  | .invokeDynamic bootstrap name descriptor _ =>
    s!"InvokeDynamic(#{bootstrap.toNat}, {name}:{descriptor})"

/-- The constants by slot, in braces. -/
def Pool.describe {T F M : Type} (p : Pool T F M) : String :=
  let shown := p.constants.map fun (i, e) => s!"{i}: {e.describe}"
  "\x7b" ++ String.intercalate ", " shown ++ "\x7d"

end JvmClass

/-!
# Reserved names

Names that every record answers to, whatever its fields: they are free neither as the name of a
level nor as a field of a logged cause.
-/

namespace AccountRegistry.Log

/-- The reserved names. -/
def reserved : List String :=
  ["constructor", "hasOwnProperty", "isPrototypeOf", "propertyIsEnumerable", "toLocaleString",
   "toString", "valueOf", "__defineGetter__", "__defineSetter__", "__lookupGetter__",
   "__lookupSetter__", "__proto__"]

/-- Whether a name is reserved. -/
def isReserved (name : String) : Bool :=
  reserved.contains name

/-- What a reserved name stands for, as text. -/
def description? (name : String) : Option String :=
  if name = "__proto__" then some "[object Object]"
  else if isReserved name then
    let known := if name = "constructor" then "Object" else name
    some ("function " ++ known ++ "() \x7b [native code] \x7d")
  else none

end AccountRegistry.Log

import NamespacePlan.Data.Value

/-!
Scalars without a value: their text is well formed, yet it is no number, date or truth value. How such
a failure is worded depends on what was asked for.
-/

namespace NamespacePlan.Yaml

inductive DateFault where
  | offset (minutes : Int)
  | year (n : Nat)
  | month
  | day
  | hour
  | minute
  | second
  deriving DecidableEq, Repr

/-- A way of failing that is no fault of the notation: the text is well formed, but a scalar in it has
no value, or there is too much of something. -/
inductive Stray where
  | notWhole (base : Nat) (text : String)
  | tooLong (digits : Nat)
  | notDecimal (text : String)
  | emptyNumber
  | noCharacter (code : Nat)
  | noDate (f : DateFault)
  | noTruthValue (word : String)
  | noTimestamp
  | tooLarge
  | collectionText
  | tooDeep
  deriving DecidableEq, Repr

def DateFault.message : DateFault → String
  | offset minutes =>
    "offset must be a timedelta strictly between -timedelta(hours=24) and timedelta(hours=24), not "
      ++ Value.spanText minutes ++ "."
  | year n => "year " ++ toString n ++ " is out of range"
  | month => "month must be in 1..12"
  | day => "day is out of range for month"
  | hour => "hour must be in 0..23"
  | minute => "minute must be in 0..59"
  | second => "second must be in 0..59"

def codeLimit : Nat := 0x80000000

def Stray.message : Stray → String
  | notWhole base text =>
    "invalid literal for int() with base " ++ toString base ++ ": " ++ Text.quoted text
  | tooLong digits => Value.tooLongText digits
  | notDecimal text => "could not convert string to float: " ++ Text.quoted text
  | emptyNumber => "string index out of range"
  | noCharacter code =>
    if codeLimit ≤ code then "Python int too large to convert to C int"
    else "chr() arg not in range(0x110000)"
  | noDate f => f.message
  | noTruthValue word => Text.quoted word
  | noTimestamp => "'NoneType' object has no attribute 'groupdict'"
  | tooLarge => "int too large to convert to float"
  | collectionText => "expected string or bytes-like object, got 'list'"
  | tooDeep => "maximum recursion depth exceeded"

end NamespacePlan.Yaml

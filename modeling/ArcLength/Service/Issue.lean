/-!
# Issues

What a request can get wrong. An issue says where, of what kind and in words.
-/

namespace ArcLength.Service

/-- A fault of a body or of one field. -/
inductive Fault where
  | missing
  | notARecord
  | notText
  | notANumber
  | unreadableNumber
  | notFinite
  | negative
  | notPositive
  | notAnInteger
  | fractional
  | unreadableInteger
  | tooLarge
  | tooFew
deriving DecidableEq, Repr

namespace Fault

def kind : Fault → String
  | missing => "missing"
  | notARecord => "model_attributes_type"
  | notText => "string_type"
  | notANumber => "float_type"
  | unreadableNumber => "float_parsing"
  | notFinite => "finite_number"
  | negative => "greater_than_equal"
  | notPositive => "greater_than"
  | notAnInteger => "int_type"
  | fractional => "int_from_float"
  | unreadableInteger => "int_parsing"
  | tooLarge => "int_parsing_size"
  | tooFew => "greater_than_equal"

def message : Fault → String
  | missing => "Field required"
  | notARecord => "Input should be a valid dictionary or object to extract fields from"
  | notText => "Input should be a valid string"
  | notANumber => "Input should be a valid number"
  | unreadableNumber => "Input should be a valid number, unable to parse string as a number"
  | notFinite => "Input should be a finite number"
  | negative => "Input should be greater than or equal to 0"
  | notPositive => "Input should be greater than 0"
  | notAnInteger => "Input should be a valid integer"
  | fractional => "Input should be a valid integer, got a number with a fractional part"
  | unreadableInteger => "Input should be a valid integer, unable to parse string as an integer"
  | tooLarge => "Unable to parse input string as an integer, exceeded maximum size"
  | tooFew => "Input should be greater than or equal to 2"

end Fault

/-- A fault of the body, or of the field of the body that is named. -/
structure Issue where
  field : Option String
  fault : Fault
deriving DecidableEq, Repr

def Issue.location (i : Issue) : List String := "body" :: i.field.toList

end ArcLength.Service

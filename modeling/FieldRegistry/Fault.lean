import FieldRegistry.Diagnostic

/-!
Everything that can be wrong with the contents of a registry. The first fault ends a run.
-/

namespace FieldRegistry

inductive Fault where
  | duplicateLocalName (localName standardName scope : String) (otherStandardName : Option String)
  | duplicateStandardName (standardName localName scope : String) (otherLocalName : Option String)
  | unresolvedDimension (dimension variableName scope : String)
  | dimensionStep (dimension variableName scope : String)
  | unknownType (typeName variableName scope : String) (suggestion : Option String)
  | illegalKind (typeName variableName scope : String)
  | unknownAttribute (attributeName element scope : String)
  | invalidAttributeValue (attributeName value element scope : String)
  | unknownContent (tag element scope : String)
  | missingInitialValue (variableName scope : String)
  | unknownIndex (index parent scope : String)
  | elementDimensionNotFound (position parent : String) (dimensions : List String) (scope : String)
  | unknownParentType (aggregate parent scope : String) (suggestion : Option String)
  | conflictingAttributes (aggregate scope : String)
  | unknownMember (member aggregate scope : String)
  | unknownElement (tag aggregate scope : String)
  | noMembers (aggregate scope : String)
  | nameCollision (typeName scope definedIn : String)
  | illegalUse (missing scope : String)
  | unknownFileElement (tag scope : String)
  | unknownSection (tag : String)
  | unsupported (problem element scope : String)
deriving DecidableEq

namespace Fault

/-- Names the holder of a name that is taken. -/
def alreadyDefined (what : String) : Option String → String
  | some name => ", already defined with " ++ what ++ ", '" ++ name ++ "'"
  | none => ""

def message : Fault → String
  | duplicateLocalName localName standardName scope other =>
    "duplicate variable local_name, '" ++ localName ++ "', with standard_name, '" ++
      standardName ++ "', in " ++ scope ++ alreadyDefined "standard_name" other
  | duplicateStandardName standardName localName scope other =>
    "duplicate variable standard_name, '" ++ standardName ++ "' from '" ++ localName ++
      "' in '" ++ scope ++ "'" ++ alreadyDefined "local_name" other
  | unresolvedDimension dimension variableName scope =>
    "Dimension, '" ++ dimension ++ "', not found for '" ++ variableName ++ "' in '" ++ scope ++ "'"
  | dimensionStep dimension variableName _ =>
    "Illegal dimension string, '" ++ dimension ++ "', in '" ++ variableName ++
      "', step not allowed"
  | unknownType typeName variableName _ _ =>
    "'" ++ variableName ++ "' has an unknown type, '" ++ typeName ++ "'"
  | illegalKind typeName variableName _ =>
    "kind attribute illegal for DDT type " ++ typeName ++ " ('" ++ variableName ++ "')"
  | unknownAttribute attributeName element _ =>
    "Bad variable attribute, '" ++ attributeName ++ "', for '" ++ element ++ "'"
  | invalidAttributeValue attributeName value element _ =>
    "Bad value, '" ++ value ++ "', for attribute '" ++ attributeName ++ "' of '" ++ element ++ "'"
  | unknownContent tag element _ =>
    "Unknown Variable content, '" ++ tag ++ "', in '" ++ element ++ "'"
  | missingInitialValue variableName _ =>
    "parameter, '" ++ variableName ++ "', does not have an initial value"
  | unknownIndex index parent _ => "Unknown array index, '" ++ index ++ "', in '" ++ parent ++ "'"
  | elementDimensionNotFound position parent dimensions _ =>
    "Cannot find element dimension, '" ++ position ++ "' in " ++ parent ++ "(" ++
      Text.join ", " dimensions ++ ")"
  | unknownParentType aggregate parent _ _ =>
    "DDT, '" ++ aggregate ++ "', extends type '" ++ parent ++ "', however, this type is not known"
  | conflictingAttributes aggregate _ =>
    "DDT, '" ++ aggregate ++ "', cannot have both 'extends' and 'bindC' attributes"
  | unknownMember member aggregate scope =>
    "Variable, '" ++ member ++ "', not found for DDT, '" ++ aggregate ++ "', in '" ++ scope ++ "'"
  | unknownElement tag aggregate _ =>
    "Unknown DDT element type, '" ++ tag ++ "', in '" ++ aggregate ++ "'"
  | noMembers aggregate _ => "DDT, '" ++ aggregate ++ "', has no member variables"
  | nameCollision typeName _ definedIn =>
    "Trying to add " ++ typeName ++ " to registry, already defined in " ++ definedIn
  | illegalUse missing scope => "Illegal use entry in '" ++ scope ++ "', no " ++ missing
  | unknownFileElement tag scope =>
    "Unknown registry File element, '" ++ tag ++ "', in '" ++ scope ++ "'"
  | unknownSection tag => "Unknown registry object type, '" ++ tag ++ "'"
  | unsupported problem element scope =>
    problem ++ " ('" ++ element ++ "' in '" ++ scope ++ "')"

def code : Fault → String
  | duplicateLocalName .. => "R0101"
  | duplicateStandardName .. => "R0102"
  | unresolvedDimension .. => "R0201"
  | dimensionStep .. => "R0202"
  | unknownType .. => "R0203"
  | illegalKind .. => "R0204"
  | unknownAttribute .. => "R0205"
  | invalidAttributeValue .. => "R0206"
  | unknownContent .. => "R0207"
  | missingInitialValue .. => "R0208"
  | unknownIndex .. => "R0209"
  | elementDimensionNotFound .. => "R0210"
  | unknownParentType .. => "R0301"
  | conflictingAttributes .. => "R0302"
  | unknownMember .. => "R0303"
  | unknownElement .. => "R0304"
  | noMembers .. => "R0305"
  | nameCollision .. => "R0306"
  | illegalUse .. => "R0401"
  | unknownFileElement .. => "R0402"
  | unknownSection .. => "R0403"
  | unsupported .. => "R0901"

/-- The file section in which the fault was found. -/
def scope? : Fault → Option String
  | duplicateLocalName _ _ scope _ | duplicateStandardName _ _ scope _
  | unresolvedDimension _ _ scope | dimensionStep _ _ scope | unknownType _ _ scope _
  | illegalKind _ _ scope | unknownAttribute _ _ scope | invalidAttributeValue _ _ _ scope
  | unknownContent _ _ scope | missingInitialValue _ scope | unknownIndex _ _ scope
  | elementDimensionNotFound _ _ _ scope | unknownParentType _ _ scope _
  | conflictingAttributes _ scope | unknownMember _ _ scope | unknownElement _ _ scope
  | noMembers _ scope | nameCollision _ scope _ | illegalUse _ scope
  | unknownFileElement _ scope | unsupported _ _ scope => some scope
  | unknownSection _ => none

/-- The element at fault. -/
def element : Fault → String
  | duplicateLocalName localName .. => localName
  | duplicateStandardName standardName .. => standardName
  | unresolvedDimension _ variableName _ | dimensionStep _ variableName _
  | unknownType _ variableName _ _ | illegalKind _ variableName _
  | missingInitialValue variableName _ => variableName
  | unknownAttribute _ element _ | invalidAttributeValue _ _ element _
  | unknownContent _ element _ | unsupported _ element _ => element
  | unknownIndex _ parent _ | elementDimensionNotFound _ parent _ _ => parent
  | unknownParentType aggregate .. | conflictingAttributes aggregate _
  | unknownMember _ aggregate _ | unknownElement _ aggregate _ | noMembers aggregate _ => aggregate
  | nameCollision typeName _ _ => typeName
  | illegalUse missing _ => missing
  | unknownFileElement tag _ | unknownSection tag => tag

/-- The known type name closest to an unknown one. -/
def suggestion? : Fault → Option String
  | unknownType _ _ _ suggestion | unknownParentType _ _ _ suggestion => suggestion
  | _ => none

/-- The fault is the compiler's, not the registry's. -/
def isInternal : Fault → Bool
  | unsupported .. => true
  | _ => false

def diagnostic (fault : Fault) (file : String) : Diagnostic :=
  { code := fault.code
    message := fault.message
    location := { file, scope := fault.scope?, element := some fault.element }
    notes := if fault.isInternal then ["this is a limitation of the registry compiler"] else []
    help := fault.suggestion?.map fun name => "did you mean `" ++ name ++ "`?" }

end Fault

end FieldRegistry

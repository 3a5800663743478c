import Stratagem.Document
import Stratagem.Text.Quoted

/-!
# Failures

Why something is refused, and in which words. What a caller can tell failures apart by is their kind. A
document or a whole number that stands in the words of a cause is shown before the cause arises, so a
cause holds it as a text. A malformed document wraps the cause that its reader met, after the place where
it was met.
-/

namespace Stratagem.Failure

open Stratagem.Text

inductive Kind where
  /-- A document does not have the expected shape. -/
  | format
  /-- An edit would exceed a limit of the editor. -/
  | limit
  /-- No node has the given id. -/
  | missingNode
  | duplicateIndicator
  | danglingReference
  | submission
  /-- Any other failure of the strategy itself. -/
  | strategy
  /-- A value is out of range or cannot be read. -/
  | value
  /-- A value is of the wrong kind. -/
  | type
  | key
  | overflow
  /-- An operation is asked of a value that has none of that name. -/
  | attribute
  | missingFile
  /-- A folder is taken for a file. -/
  | directory
  /-- A file is in the way of a folder. -/
  | existingFile
  /-- A file is taken for a folder. -/
  | notDirectory
  /-- A text cannot be put into a file. -/
  | encoding
  /-- Any other failure of a file. -/
  | system
  /-- A document is nested too deeply. -/
  | depth
  /-- The marks of a text do not fit each other. -/
  | markup
  deriving DecidableEq, Repr

/-! ## Coercions

A document was taken for something that it is not: a number, a collection, a text. -/

inductive Coercion where
  | notIterable (d : Document)
  | noLength (d : Document)
  | notReal (d : Document)
  | unreadableReal (s : String)
  | realTooLarge
  | notInteger (d : Document)
  | unreadableInteger (s : String)
  | tooManyDigits (digits : Nat)
  /-- A whole number is too long to be written. -/
  | tooLongToWrite
  | integerOfNoNumber
  | integerOfInfinity
  /-- A text operation was asked of something else. -/
  | noTextOperation (d : Document)
  /-- Something else than a text was to be joined to texts. -/
  | notJoinable (d : Document)
  /-- A record or list cannot be a member of a set. -/
  | notHashable (d : Document)
  /-- Two values without a common order were compared. -/
  | notComparable (a b : Document)
  /-- Something else than numbers was to be subtracted. -/
  | noDifference (a b : Document)
  /-- A record without the key was asked for it. -/
  | noMember (shown : String)
  /-- Something else than a whole number was to tell a place in a list. -/
  | notIndex (d : Document)
  | noAttribute (name : String)
  /-- A name stands for something else than the rank of a level. -/
  | noRank (name : String)
  | notRank (name : String)
  /-- A part that is not known, or is given twice. -/
  | surplusPart (name : String)
  | missingPart (name : String)

namespace Coercion

def kind : Coercion → Kind
  | notIterable _ | noLength _ | notReal _ | notInteger _ | notJoinable _ | notHashable _
  | notComparable _ _ | noDifference _ _ | notIndex _ | notRank _ | surplusPart _ | missingPart _ => .type
  | unreadableReal _ | unreadableInteger _ | tooManyDigits _ | tooLongToWrite | integerOfNoNumber
  | noRank _ => .value
  | realTooLarge | integerOfInfinity => .overflow
  | noTextOperation _ | noAttribute _ => .attribute
  | noMember _ => .key

/-- A message quotes this much of an unreadable whole number. -/
def quotedLimit : Nat := 200

/-- What a whole number of too many digits is told, with what is known of it. -/
def digitLimit (known : String) : String :=
  "Exceeds the limit (4300 digits) for integer string conversion" ++ known ++
    "; use sys.set_int_max_str_digits() to increase the limit"

def message : Coercion → String
  | notIterable d => "'" ++ d.kindName ++ "' object is not iterable"
  | noLength d => "object of type '" ++ d.kindName ++ "' has no len()"
  | notReal d => "float() argument must be a string or a real number, not '" ++ d.kindName ++ "'"
  | unreadableReal s => "could not convert string to float: " ++ quoted s
  | realTooLarge => "int too large to convert to float"
  | notInteger d =>
    "int() argument must be a string, a bytes-like object or a real number, not '" ++ d.kindName ++ "'"
  | unreadableInteger s =>
    "invalid literal for int() with base 10: " ++ String.ofList ((quoted s).toList.take quotedLimit)
  | tooManyDigits n => digitLimit (": value has " ++ Number.decimal n ++ " digits")
  | tooLongToWrite => digitLimit ""
  | integerOfNoNumber => "cannot convert float NaN to integer"
  | integerOfInfinity => "cannot convert float infinity to integer"
  | noTextOperation d => "'" ++ d.kindName ++ "' object has no attribute 'strip'"
  | notJoinable d => "expected str instance, " ++ d.kindName ++ " found"
  | notHashable d => "unhashable type: '" ++ d.kindName ++ "'"
  | notComparable a b =>
    "comparison not supported between instances of '" ++ a.kindName ++ "' and '" ++ b.kindName ++ "'"
  | noDifference a b =>
    "unsupported operand types for -: '" ++ a.kindName ++ "' and '" ++ b.kindName ++ "'"
  | noMember shown => shown
  | notIndex d => "list indices must be integers, not " ++ d.kindName
  | noAttribute name => "no attribute " ++ quoted name
  | noRank name => "Unknown level: " ++ quoted name
  | notRank name => "Level not an integer or a valid string: " ++ quoted name
  | surplusPart name => "unexpected argument " ++ quoted name
  | missingPart name => "missing argument " ++ quoted name

end Coercion

/-! ## References and indicators -/

inductive Reference where
  | unknownKind (shown : String)
  | paramsNotList (shown : String)
  | paramNotNumeric (shown : String)
  | offsetNotPair (shown : String)
  | offsetNotIntegers (shown : String)
  | offsetNegative (low high : String)
  | offsetReversed (low high : String)
  | noIndicator
  | noField
  | literalNotNumeric (input : String)

def Reference.message : Reference → String
  | unknownKind shown => "Unknown refType '" ++ shown ++ "'. Allowed: Indicator, Field, Const"
  | paramsNotList shown => "ValueRef: params must be a list of numbers, got " ++ shown
  | paramNotNumeric shown => "ValueRef: params must be numeric, got " ++ shown
  | offsetNotPair shown => "ValueRef: offsetRange must be [minBarsBack, maxBarsBack], got " ++ shown
  | offsetNotIntegers shown => "ValueRef: offsetRange must be integers, got " ++ shown
  | offsetNegative low high =>
    "ValueRef: offsetRange values must be >= 0, got [" ++ low ++ ", " ++ high ++ "]"
  | offsetReversed low high =>
    "ValueRef: offsetRange min (" ++ low ++ ") must be <= max (" ++ high ++ ")"
  | noIndicator => "ValueRef: indicator is required for Indicator refs"
  | noField => "ValueRef: input (kline field) is required for Field refs"
  | literalNotNumeric input => "ValueRef: Const input must be numeric, got " ++ quoted input

inductive Indicator where
  | noOutputKey
  | noId
  | noCode (id : String)
  | offsetNotPair (shown : String)
  | repeatedId (id : String)

def Indicator.message : Indicator → String
  | noOutputKey => "IndicatorOutput: key is required"
  | noId => "SelectedIndicator: id is required"
  | noCode id => "SelectedIndicator '" ++ id ++ "': code is required"
  | offsetNotPair shown => "offsetRange must have two values, got " ++ shown
  | repeatedId id => "IndicatorSelection: duplicate indicator id '" ++ id ++ "'"

/-! ## Documents

A document does not have the shape that its reader expects. Where a place is given, it is the path of the
node that is at fault. -/

inductive Format where
  | notRecord (what : String) (raw : Document)
  | notList (what : String) (raw : Document)
  | notFlag (place? : Option String) (key shown : String)
  | notWhole (place? : Option String) (key shown : String)
  | unreadableArgument (shown : String)
  | unreadableConditionArgument (shown : String)
  | argumentNotNumeric (raw : String)
  | noMethod (shown : String)
  | tooFewArguments (id method : String) (given : Nat)
  | noLogicSection
  -- drafts
  | flagOperand (place : String)
  | unknownIndicator (place id : String)
  | unknownOperand (place raw : String)
  | unsupportedOperand (place shown : String)
  | unreadableOffset (shown : String)
  | conditionNotRecord (place : String)
  | conditionIncomplete (place key : String)
  | nodeWithoutId (place node : String)
  | logicNotRecord
  | branchNotRecord (slot : String)
  | indicatorsNotList
  -- files
  | unparsable (path : String)
  | emptyFile (path : String)
  | notIndicatorList (path : String)

namespace Format

/-- A member of a record, at a place if there is one. -/
def memberAt (place? : Option String) (key : String) : String :=
  (place?.elim "" (· ++ ": ")) ++ "'" ++ key ++ "'"

def message : Format → String
  | notRecord what raw => what ++ " must be an object, got " ++ raw.kindName
  | notList what raw => what ++ " must be a list, got " ++ raw.kindName
  | notFlag place? key shown => memberAt place? key ++ " must be true or false, got " ++ shown
  | notWhole place? key shown => memberAt place? key ++ " must be an integer, got " ++ shown
  | unreadableArgument shown => "Method arg must be a ValueRef, number or string, got " ++ shown
  | unreadableConditionArgument shown => "Condition arg must be a ValueRef or number, got " ++ shown
  | argumentNotNumeric raw => "Condition arg is not numeric: " ++ quoted raw
  | noMethod shown => "MethodConfig: 'method' is required, got " ++ shown
  | tooFewArguments id method given =>
    "Condition '" ++ id ++ "' (" ++ method ++ ") needs at least 2 args, got " ++ Number.decimal given
  | noLogicSection => "Strategy config has no 'logic' section"
  | flagOperand place => place ++ ": booleans are not valid operands"
  | unknownIndicator place id => place ++ ": unknown indicator id '" ++ id ++ "'"
  | unknownOperand place raw =>
    place ++ ": '" ++ raw ++ "' is not a number, selected indicator id or kline field"
  | unsupportedOperand place shown => place ++ ": unsupported operand " ++ shown
  | unreadableOffset shown => "offset must be an integer or [min, max], got " ++ shown
  | conditionNotRecord place => place ++ ": condition must be an object"
  | conditionIncomplete place key => place ++ ": condition is missing '" ++ key ++ "'"
  | nodeWithoutId place node => place ++ ": " ++ node ++ " must be an object with an 'id'"
  | logicNotRecord => "logic must be a mapping of branch slot -> branch"
  | branchNotRecord slot => slot ++ ": branch must be an object"
  | indicatorsNotList => "'indicators' must be a list"
  | unparsable path => "Cannot parse " ++ path
  | emptyFile path => "Empty document in " ++ path
  | notIndicatorList path => path ++ ": expected a list of indicators"

end Format

/-! ## Nodes, edits and methods -/

inductive Node where
  /-- The node is named by its type: a condition, a group, a container. -/
  | noId (type : String)
  | noMethod (id : String)
  | leftNotReference (id : String)
  | badOperand (id position shown : String)
  | repeatedId (owner child id : String)
  | unknownSlot (raw : String)

namespace Node

def kind : Node → Kind
  | leftNotReference _ | badOperand _ _ _ => .type
  | _ => .value

def message : Node → String
  | noId type => type ++ ": id is required"
  | noMethod id => "ConditionItem '" ++ id ++ "': method is required"
  | leftNotReference id => "ConditionItem '" ++ id ++ "': left must be a ValueRef"
  | badOperand id position shown =>
    "ConditionItem '" ++ id ++ "': " ++ position ++ " must be a ValueRef or number, got " ++ shown
  | repeatedId owner child id => owner ++ ": duplicate " ++ child ++ " id '" ++ id ++ "'"
  | unknownSlot raw =>
    "Unknown branch slot '" ++ raw ++ "'. Allowed: entry.long, entry.short, exit.long, exit.short"

end Node

inductive Edit where
  | missingNode (node id parent : String)
  /-- The holder has room for so many children only. -/
  | full (holder : String) (limit : Document) (shown children : String)
  | containerExists (id parent : String)
  | groupExists (id parent : String)
  | unknownFlag (key : String)
  | negativeThreshold (shown : String)
  | groupWithoutContainer

namespace Edit

def kind : Edit → Kind
  | missingNode _ _ _ => .missingNode
  | full _ _ _ _ => .limit
  | _ => .value

def message : Edit → String
  | missingNode node id parent =>
    "Unknown " ++ node ++ " id '" ++ id ++ "'" ++ (if parent.isEmpty then "" else " in " ++ parent)
  | full holder _ shown children => holder ++ " can hold at most " ++ shown ++ " " ++ children
  | containerExists id parent => "Container id '" ++ id ++ "' already exists in " ++ parent
  | groupExists id parent => "Group id '" ++ id ++ "' already exists in " ++ parent
  | unknownFlag key => "Unknown flag '" ++ key ++ "'. Allowed: enabled, required"
  | negativeThreshold shown => "Threshold must be >= 0, got " ++ shown
  | groupWithoutContainer => "group_id requires container_id"

end Edit

inductive Method where
  | unknown (name : String)
  | isAction (name : String)
  | noUpperBound (name : String)
  | surplusUpperBound (name : String)
  | operandCount (name : String) (expected given : Nat)
  | noPreviousBar (name : String)
  | notComparator (name : String)

def Method.message : Method → String
  | unknown name =>
    "Unknown method '" ++ name ++ "'. Allowed: Between, CrossAny, CrossDown, CrossUp, Equal, " ++
      "GreaterThan, GreaterThanOrEqual, LessThan, LessThanOrEqual, NotEqual, Outside"
  | isAction name => "'" ++ name ++ "' is an action, not a comparator"
  | noUpperBound name => name ++ " needs an upper bound"
  | surplusUpperBound name => name ++ " takes two operands, got an upper bound"
  | operandCount name expected given =>
    name ++ " expects " ++ Number.decimal expected ++ " operands, got " ++ Number.decimal given
  | noPreviousBar name => name ++ " requires previous bar values"
  | notComparator name => name ++ " is not a comparator"

/-! ## Trade settings and limits -/

inductive Trade where
  | orderQty (shown : String)
  | maxPositionQty (shown : String)
  | leverage (shown : String)
  | timeframe (shown : String)

def Trade.message : Trade → String
  | orderQty shown => "orderQty must be > 0, got " ++ shown
  | maxPositionQty shown => "maxPositionQty must be > 0, got " ++ shown
  | leverage shown => "leverage must be >= 1, got " ++ shown
  | timeframe shown => "timeframeSec must be > 0, got " ++ shown

inductive Limit where
  | groupsPerContainer (shown : String)
  | conditionsPerGroup (shown : String)

def Limit.message : Limit → String
  | groupsPerContainer shown => "MAX_GROUPS_PER_CONTAINER must be >= 1, got " ++ shown
  | conditionsPerGroup shown => "MAX_CONDITIONS_PER_GROUP must be >= 1, got " ++ shown

/-! ## Templates

A template cannot be filled with the values that it is given. -/

inductive Template where
  /-- A place is cut off, or its size is beyond bounds. -/
  | malformed
  | unknownConversion (c : Char)
  /-- A place names its value, but the values have no names. -/
  | unnamedValues
  | noValue (name : String)
  | tooFewValues
  | surplusValues
  /-- A value is not of the kind that its place shows. -/
  | notConvertible (c : Char) (d : Document)
  | sizeNotWhole (d : Document)
  | sizeOutOfBounds
  | noCharacter

namespace Template

def kind : Template → Kind
  | malformed | unknownConversion _ => .value
  | noValue _ => .key
  | sizeOutOfBounds | noCharacter => .overflow
  | unnamedValues | tooFewValues | surplusValues | notConvertible _ _ | sizeNotWhole _ => .type

def message : Template → String
  | malformed => "incomplete format"
  | unknownConversion c => "unsupported format character " ++ quoted (String.singleton c)
  | unnamedValues => "format requires a mapping"
  | noValue name => quoted name
  | tooFewValues => "not enough arguments for format string"
  | surplusValues => "not all arguments converted during string formatting"
  | notConvertible c d => "%" ++ String.singleton c ++ " format: a number is required, not " ++ d.kindName
  | sizeNotWhole d => "* wants int, got " ++ d.kindName
  | sizeOutOfBounds => "size out of bounds"
  | noCharacter => "no character has the code"

end Template

/-! ## Files and marks -/

inductive File where
  | missing (path : String)
  | isDirectory (path : String)
  /-- A folder is to be made where there is a file. -/
  | inTheWay (path : String)
  /-- A file is taken for a folder. -/
  | notDirectory (path : String)
  | nameTooLong (path : String)
  /-- A path holds the character that ends all paths. -/
  | badPath
  /-- A text holds what no file can hold. -/
  | notEncodable
  /-- The path was lost. -/
  | noPath

namespace File

def kind : File → Kind
  | missing _ => .missingFile
  | isDirectory _ => .directory
  | inTheWay _ => .existingFile
  | notDirectory _ => .notDirectory
  | nameTooLong _ => .system
  | badPath => .value
  | notEncodable => .encoding
  | noPath => .type

def message : File → String
  | missing path => "File not found: " ++ path
  | isDirectory path => "Is a directory: " ++ path
  | inTheWay path => "File exists: " ++ path
  | notDirectory path => "Not a directory: " ++ path
  | nameTooLong path => "File name too long: " ++ path
  | badPath => "embedded null byte"
  | notEncodable => "surrogates cannot be encoded"
  | noPath => "expected a path"

end File

/-- Why the marks in a text for a terminal do not fit each other. -/
inductive Markup where
  /-- A style is closed that is not open. -/
  | notOpen (style : String)
  /-- The last style is closed, but none is open. -/
  | nothingOpen
  deriving DecidableEq, Repr

def Markup.message : Markup → String
  | notOpen style => "closing mark " ++ quoted style ++ " does not match any open mark"
  | nothingOpen => "closing mark has nothing to close"

end Stratagem.Failure

/-! ## Failures by kind -/

namespace Stratagem

inductive Failure where
  | coercion (c : Failure.Coercion)
  | template (c : Failure.Template)
  | reference (c : Failure.Reference)
  | indicator (c : Failure.Indicator)
  | format (c : Failure.Format)
  | node (c : Failure.Node)
  | edit (c : Failure.Edit)
  | method (c : Failure.Method)
  | trade (c : Failure.Trade)
  | limit (c : Failure.Limit)
  | malformed (place? : Option String) (cause : Failure)
  /-- A flag where an operand belongs. -/
  | flagOperand (b : Bool)
  | duplicateIndicator (signature existing : String)
  /-- Nothing has the given key. -/
  | missingKey (shown : String)
  | dangling (reason : String)
  | submission (reason : String)
  | valuesNotRecord
  | file (c : Failure.File)
  | markup (c : Failure.Markup)
  /-- A document is nested too deeply. -/
  | depth

namespace Failure

def kind : Failure → Kind
  | coercion c => c.kind
  | template c => c.kind
  | node c => c.kind
  | edit c => c.kind
  | reference _ | indicator _ | method _ | trade _ | limit _ => .value
  | format _ | malformed _ _ => .format
  | flagOperand _ => .type
  | duplicateIndicator _ _ => .duplicateIndicator
  | missingKey _ => .key
  | dangling _ => .danglingReference
  | submission _ => .submission
  | valuesNotRecord => .strategy
  | file c => c.kind
  | markup _ => .markup
  | depth => .depth

def message : Failure → String
  | coercion c => c.message
  | template c => c.message
  | reference c => c.message
  | indicator c => c.message
  | format c => c.message
  | node c => c.message
  | edit c => c.message
  | method c => c.message
  | trade c => c.message
  | limit c => c.message
  | malformed place? cause => place?.elim "" (· ++ ": ") ++ cause.message
  | flagOperand b => "Operand must be a ValueRef or number, got " ++ (if b then "True" else "False")
  | duplicateIndicator signature existing =>
    "Indicator '" ++ signature ++ "' is already selected as '" ++ existing ++ "'"
  | missingKey shown => shown
  | dangling reason => reason
  | submission reason => reason
  | valuesNotRecord => "Values file must map series keys to values (newest first)"
  | file c => c.message
  | markup c => c.message
  | depth => "maximum depth exceeded"

/-- Whether the failure only says that a value or a file is not what it was taken for, and no reader has
put it in its place. -/
def isBare : Failure → Bool
  | coercion _ | template _ => true
  | file (.missing _) => false
  | file _ | markup _ | depth => true
  | _ => false

/-- Whether the failure is one of a value or, when `types` is set, of a type. Malformed documents count
as failures of a value. -/
def isOfValue (types : Bool) (f : Failure) : Bool :=
  match f.kind with
  | .value | .format => true
  | .type => types
  | _ => false

end Failure

/-- Runs a reader and puts the failures of a value that are not yet placed at `place?`. -/
def placed {α : Type} (place? : Option String) (types : Bool) (run : Except Failure α) :
    Except Failure α :=
  match run with
  | .error f =>
    if f.kind != .format && f.isOfValue types then .error (.malformed place? f) else .error f
  | .ok a => .ok a

end Stratagem

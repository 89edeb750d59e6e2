import BasicLexis.Text.LowerCase

set_option autoImplicit false

/-! # Keywords

Every word of Visual Basic that is read as a keyword, reserved or contextual. A constructor is
spelled like its keyword (those that share their name with a type in common use are protected);
keywords are recognised without regard to case. -/

namespace BasicLexis

/-- The keywords of the language. -/
inductive Keyword where
  | AddHandler | AddressOf | Aggregate | Alias | protected And | AndAlso | Ansi | As | Ascending
  | Assembly | Async | Auto | Await | Binary | Boolean | By | ByRef | Byte | ByVal | Call | Case
  | Catch | CBool | CByte | CChar | CDate | CDbl | CDec | protected Char | CInt | Class | CLng
  | CObj | Compare | Const | Continue | CSByte | CShort | CSng | CStr | CType | CUInt | CULng
  | CUShort | Custom | Date | protected Decimal | Declare | Default | Delegate | Descending | Dim
  | DirectCast | Distinct | Do | protected Double | Each | Else | ElseIf | End | EndIf | Enum
  | Equals | Erase | protected Error | Event | Exit | Explicit | protected False | Finally | For
  | Friend | From | protected Function | Get | GetType | GetXmlNamespace | Global | GoSub | GoTo
  | Group | Handles | If | Implements | Imports | In | Infer | Inherits | Integer | Interface
  | Into | Is | IsNot | Iterator | Join | Key | Let | Lib | Like | Long | Loop | Me | Mod
  | Module | MustInherit | MustOverride | MyBase | MyClass | Namespace | Narrowing | New | Next
  | protected Not | Nothing | NotInheritable | NotOverridable | Object | Of | Off | On | Operator
  | protected Option | Optional | protected Or | Order | OrElse | Out | Overloads | Overridable
  | Overrides | ParamArray | Partial | Preserve | Private | Property | Protected | Public
  | RaiseEvent | ReadOnly | ReDim | Rem | RemoveHandler | Resume | Return | SByte | Select
  | protected Set | Shadows | Shared | Short | Single | Skip | Static | Step | Stop | Strict
  | protected String | Structure | Sub | SyncLock | Take | protected Text | Then | Throw | To
  | protected True | Try | TryCast | TypeOf | UInteger | ULong | Unicode | Until | UShort | Using
  | Variant | Wend | When | Where | While | Widening | With | WithEvents | WriteOnly | Xor
  | Yield
  deriving DecidableEq, Repr

namespace Keyword

/-- All keywords, in alphabetical order. -/
def all : List Keyword :=
  [.AddHandler, .AddressOf, .Aggregate, .Alias, .And, .AndAlso, .Ansi, .As, .Ascending,
   .Assembly, .Async, .Auto, .Await, .Binary, .Boolean, .By, .ByRef, .Byte, .ByVal, .Call, .Case,
   .Catch, .CBool, .CByte, .CChar, .CDate, .CDbl, .CDec, .Char, .CInt, .Class, .CLng, .CObj,
   .Compare, .Const, .Continue, .CSByte, .CShort, .CSng, .CStr, .CType, .CUInt, .CULng, .CUShort,
   .Custom, .Date, .Decimal, .Declare, .Default, .Delegate, .Descending, .Dim, .DirectCast,
   .Distinct, .Do, .Double, .Each, .Else, .ElseIf, .End, .EndIf, .Enum, .Equals, .Erase, .Error,
   .Event, .Exit, .Explicit, .False, .Finally, .For, .Friend, .From, .Function, .Get, .GetType,
   .GetXmlNamespace, .Global, .GoSub, .GoTo, .Group, .Handles, .If, .Implements, .Imports, .In,
   .Infer, .Inherits, .Integer, .Interface, .Into, .Is, .IsNot, .Iterator, .Join, .Key, .Let,
   .Lib, .Like, .Long, .Loop, .Me, .Mod, .Module, .MustInherit, .MustOverride, .MyBase, .MyClass,
   .Namespace, .Narrowing, .New, .Next, .Not, .Nothing, .NotInheritable, .NotOverridable,
   .Object, .Of, .Off, .On, .Operator, .Option, .Optional, .Or, .Order, .OrElse, .Out,
   .Overloads, .Overridable, .Overrides, .ParamArray, .Partial, .Preserve, .Private, .Property,
   .Protected, .Public, .RaiseEvent, .ReadOnly, .ReDim, .Rem, .RemoveHandler, .Resume, .Return,
   .SByte, .Select, .Set, .Shadows, .Shared, .Short, .Single, .Skip, .Static, .Step, .Stop,
   .Strict, .String, .Structure, .Sub, .SyncLock, .Take, .Text, .Then, .Throw, .To, .True, .Try,
   .TryCast, .TypeOf, .UInteger, .ULong, .Unicode, .Until, .UShort, .Using, .Variant, .Wend,
   .When, .Where, .While, .Widening, .With, .WithEvents, .WriteOnly, .Xor, .Yield]

/-- The canonical spelling of a keyword. -/
def spelling : Keyword → String
  | .AddHandler => "AddHandler"
  | .AddressOf => "AddressOf"
  | .Aggregate => "Aggregate"
  | .Alias => "Alias"
  | .And => "And"
  | .AndAlso => "AndAlso"
  | .Ansi => "Ansi"
  | .As => "As"
  | .Ascending => "Ascending"
  | .Assembly => "Assembly"
  | .Async => "Async"
  | .Auto => "Auto"
  | .Await => "Await"
  | .Binary => "Binary"
  | .Boolean => "Boolean"
  | .By => "By"
  | .ByRef => "ByRef"
  | .Byte => "Byte"
  | .ByVal => "ByVal"
  | .Call => "Call"
  | .Case => "Case"
  | .Catch => "Catch"
  | .CBool => "CBool"
  | .CByte => "CByte"
  | .CChar => "CChar"
  | .CDate => "CDate"
  | .CDbl => "CDbl"
  | .CDec => "CDec"
  | .Char => "Char"
  | .CInt => "CInt"
  | .Class => "Class"
  | .CLng => "CLng"
  | .CObj => "CObj"
  | .Compare => "Compare"
  | .Const => "Const"
  | .Continue => "Continue"
  | .CSByte => "CSByte"
  | .CShort => "CShort"
  | .CSng => "CSng"
  | .CStr => "CStr"
  | .CType => "CType"
  | .CUInt => "CUInt"
  | .CULng => "CULng"
  | .CUShort => "CUShort"
  | .Custom => "Custom"
  | .Date => "Date"
  | .Decimal => "Decimal"
  | .Declare => "Declare"
  | .Default => "Default"
  | .Delegate => "Delegate"
  | .Descending => "Descending"
  | .Dim => "Dim"
  | .DirectCast => "DirectCast"
  | .Distinct => "Distinct"
  | .Do => "Do"
  | .Double => "Double"
  | .Each => "Each"
  | .Else => "Else"
  | .ElseIf => "ElseIf"
  | .End => "End"
  | .EndIf => "EndIf"
  | .Enum => "Enum"
  | .Equals => "Equals"
  | .Erase => "Erase"
  | .Error => "Error"
  | .Event => "Event"
  | .Exit => "Exit"
  | .Explicit => "Explicit"
  | .False => "False"
  | .Finally => "Finally"
  | .For => "For"
  | .Friend => "Friend"
  | .From => "From"
  | .Function => "Function"
  | .Get => "Get"
  | .GetType => "GetType"
  | .GetXmlNamespace => "GetXmlNamespace"
  | .Global => "Global"
  | .GoSub => "GoSub"
  | .GoTo => "GoTo"
  | .Group => "Group"
  | .Handles => "Handles"
  | .If => "If"
  | .Implements => "Implements"
  | .Imports => "Imports"
  | .In => "In"
  | .Infer => "Infer"
  | .Inherits => "Inherits"
  | .Integer => "Integer"
  | .Interface => "Interface"
  | .Into => "Into"
  | .Is => "Is"
  | .IsNot => "IsNot"
  | .Iterator => "Iterator"
  | .Join => "Join"
  | .Key => "Key"
  | .Let => "Let"
  | .Lib => "Lib"
  | .Like => "Like"
  | .Long => "Long"
  | .Loop => "Loop"
  | .Me => "Me"
  | .Mod => "Mod"
  | .Module => "Module"
  | .MustInherit => "MustInherit"
  | .MustOverride => "MustOverride"
  | .MyBase => "MyBase"
  | .MyClass => "MyClass"
  | .Namespace => "Namespace"
  | .Narrowing => "Narrowing"
  | .New => "New"
  | .Next => "Next"
  | .Not => "Not"
  | .Nothing => "Nothing"
  | .NotInheritable => "NotInheritable"
  | .NotOverridable => "NotOverridable"
  | .Object => "Object"
  | .Of => "Of"
  | .Off => "Off"
  | .On => "On"
  | .Operator => "Operator"
  | .Option => "Option"
  | .Optional => "Optional"
  | .Or => "Or"
  | .Order => "Order"
  | .OrElse => "OrElse"
  | .Out => "Out"
  | .Overloads => "Overloads"
  | .Overridable => "Overridable"
  | .Overrides => "Overrides"
  | .ParamArray => "ParamArray"
  | .Partial => "Partial"
  | .Preserve => "Preserve"
  | .Private => "Private"
  | .Property => "Property"
  | .Protected => "Protected"
  | .Public => "Public"
  | .RaiseEvent => "RaiseEvent"
  | .ReadOnly => "ReadOnly"
  | .ReDim => "ReDim"
  | .Rem => "REM"
  | .RemoveHandler => "RemoveHandler"
  | .Resume => "Resume"
  | .Return => "Return"
  | .SByte => "SByte"
  | .Select => "Select"
  | .Set => "Set"
  | .Shadows => "Shadows"
  | .Shared => "Shared"
  | .Short => "Short"
  | .Single => "Single"
  | .Skip => "Skip"
  | .Static => "Static"
  | .Step => "Step"
  | .Stop => "Stop"
  | .Strict => "Strict"
  | .String => "String"
  | .Structure => "Structure"
  | .Sub => "Sub"
  | .SyncLock => "SyncLock"
  | .Take => "Take"
  | .Text => "Text"
  | .Then => "Then"
  | .Throw => "Throw"
  | .To => "To"
  | .True => "True"
  | .Try => "Try"
  | .TryCast => "TryCast"
  | .TypeOf => "TypeOf"
  | .UInteger => "UInteger"
  | .ULong => "ULong"
  | .Unicode => "Unicode"
  | .Until => "Until"
  | .UShort => "UShort"
  | .Using => "Using"
  | .Variant => "Variant"
  | .Wend => "Wend"
  | .When => "When"
  | .Where => "Where"
  | .While => "While"
  | .Widening => "Widening"
  | .With => "With"
  | .WithEvents => "WithEvents"
  | .WriteOnly => "WriteOnly"
  | .Xor => "Xor"
  | .Yield => "Yield"

/-- The name of a keyword in listings: its spelling, `Rem` apart. -/
def name : Keyword → String
  | .Rem => "Rem"
  | word => word.spelling

/-- The keywords under their lower-case spellings. -/
def index : List (List Char × Keyword) :=
  all.map fun k => (k.spelling.toList.map Text.lowerChar, k)

/-- The keyword that a word spells, if any, in upper or lower case. -/
def ofWord? (word : List Char) : Option Keyword := index.lookup (word.map Text.lowerChar)

/-- Keywords that act as such only in certain positions and are names elsewhere. -/
def isContextual : Keyword → Bool
  | .Aggregate | .Ansi | .Ascending | .Assembly | .Async | .Auto | .Await | .Binary | .By
  | .Compare | .Custom | .Descending | .Distinct | .Equals | .Explicit | .From | .Group
  | .Infer | .Into | .Iterator | .Join | .Key | .Off | .Order | .Out | .Preserve | .Skip
  | .Strict | .Take | .Text | .Unicode | .Until | .Where | .Yield => true
  | _ => false

/-- Modifiers that may precede the declaration of a type or member. -/
def isModifier : Keyword → Bool
  | .Public | .Private | .Protected | .Friend | .Shared | .Shadows | .Static | .Overloads
  | .Overrides | .Overridable | .NotOverridable | .MustOverride | .MustInherit
  | .NotInheritable | .Partial | .ReadOnly | .WriteOnly | .WithEvents | .Default | .Widening
  | .Narrowing | .Dim | .Const | .Async | .Iterator => true
  | _ => false

/-- The names of the built-in types. -/
def isPrimitiveType : Keyword → Bool
  | .Boolean | .Byte | .Char | .Date | .Decimal | .Double | .Integer | .Long | .Object | .SByte
  | .Short | .Single | .String | .UInteger | .ULong | .UShort => true
  | _ => false

/-- The conversion operators, which take one argument in parentheses. -/
def isConversion : Keyword → Bool
  | .CBool | .CByte | .CChar | .CDate | .CDbl | .CDec | .CInt | .CLng | .CObj | .CSByte
  | .CShort | .CSng | .CStr | .CUInt | .CULng | .CUShort => true
  | _ => false

end Keyword

end BasicLexis

import CadHarness.Canonical.BridgeAuthorization
import CadHarness.Lib.DotNet
import CadHarness.Lib.Netstring
import CadHarness.Lib.SortBy

/-!
# What the bridge observes of a document

The records of `BridgeInspectionService` and their validation. The child entities are a field of the
geometry in the source; they stand beside it here, because the type is recursive through them.
-/

namespace CadHarness.Inspection
open CadHarness.Lib CadHarness.Canonical

inductive Exception where
  | argument (message parameter : String)
  | argumentOutOfRange (parameter message : String)
  | invalidOperation (message : String)
  deriving DecidableEq

/-! ## Values -/

/-- A `double` as the host may supply it. -/
inductive RawDouble where
  | finite (x : Double)
  | infinity (neg : Bool)
  | nan
  deriving DecidableEq

namespace RawDouble

def isFinite : RawDouble → Bool
  | .finite _ => true
  | .infinity _ | .nan => false

def value (x : Double) : ℚ := if x.1.neg then -x.1.mag else x.1.mag

/-- `left < right`, false of a NaN. -/
def lt : RawDouble → RawDouble → Bool
  | .finite x, .finite y => decide (value x < value y)
  | .infinity neg, .finite _ => neg
  | .finite _, .infinity neg => !neg
  | .infinity neg, .infinity neg' => neg && !neg'
  | _, _ => false

def zero : RawDouble := .finite ⟨.zero false, Binary64.zero_isFinite⟩

/-- `value is 0.0` -/
def isZero : RawDouble → Bool
  | .finite x => x.1.mant = 0
  | .infinity _ | .nan => false

/-- `value is <= 0.0` -/
def isNonpositive (x : RawDouble) : Bool := x.lt zero || x.isZero

end RawDouble

def isHexDigit (u : UInt16) : Bool := (48 ≤ u && u ≤ 57) || (65 ≤ u && u ≤ 70)

/-- A persistent handle of 1 to 64 hexadecimal digits, in upper case. -/
structure StableEntityReference where
  handle : Text
  nonempty : handle ≠ []
  bounded : handle.length ≤ 64
  hex : handle.all isHexDigit
  deriving DecidableEq

def isIdentifierUnit (u : UInt16) : Bool :=
  (48 ≤ u && u ≤ 57) || (65 ≤ u && u ≤ 90) || (97 ≤ u && u ≤ 122) || u = 45 || u = 95 || u = 46 || u = 58

def isAlphaNumeric (u : UInt16) : Bool := (48 ≤ u && u ≤ 57) || (65 ≤ u && u ≤ 90) || (97 ≤ u && u ≤ 122)

/-- An identifier of harness metadata, as `CadHarnessMetadata.Create` lets it through. -/
structure MetadataIdentifier where
  text : Text
  bounded : text.length ≤ 128
  begins : text.head?.any isAlphaNumeric
  ends : text.getLast?.any isAlphaNumeric
  ascii : text.all isIdentifierUnit
  deriving DecidableEq

structure CadHarnessMetadata where
  featureId : MetadataIdentifier
  operationId : MetadataIdentifier
  deriving DecidableEq

/-! ## Records -/

inductive InspectionGeometryKind where
  | point | line | circle | arc | ellipse | polyline | text | dimension | hatch | blockReference | other
  deriving DecidableEq

inductive InspectionStyleKind where
  | text | dimension | multileader | table | other
  deriving DecidableEq

structure InspectionPoint where
  x : RawDouble
  y : RawDouble
  z : RawDouble
  deriving DecidableEq

structure InspectionBounds where
  minimum : InspectionPoint
  maximum : InspectionPoint
  deriving DecidableEq

structure InspectionGeometry where
  kind : InspectionGeometryKind
  points : List InspectionPoint
  bounds : Option InspectionBounds := none
  radius : Option RawDouble := none
  startAngleRadians : Option RawDouble := none
  endAngleRadians : Option RawDouble := none
  closed : Bool := false
  bulges : Option (List RawDouble) := none
  majorAxis : Option RawDouble := none
  minorAxis : Option RawDouble := none
  rotationRadians : Option RawDouble := none
  textHeight : Option RawDouble := none
  textStyle : Option Text := none
  dimensionType : Option Text := none
  dimensionStyle : Option Text := none
  measurement : Option RawDouble := none
  textOverride : Option Text := none
  measuredEntityRefs : Option (List StableEntityReference) := none
  patternName : Option Text := none
  observedArea : Option RawDouble := none
  boundaryEntityRefs : Option (List StableEntityReference) := none
  blockName : Option Text := none
  insertion : Option InspectionPoint := none
  scaleX : Option RawDouble := none
  scaleY : Option RawDouble := none
  nonUniformScale : Bool := false
  nestedDepthRead : Int := 0
  childrenBeyondDepth : Int := 0
  deriving DecidableEq

/-- The fields of an entity beside its geometry. -/
structure InspectionAttributes where
  entityRef : StableEntityReference
  entityType : Text
  layer : Text
  style : Option Text
  colorIndex : Option Int
  linetype : Option Text
  content : Option Text
  harnessMetadata : Option CadHarnessMetadata
  visible : Bool
  space : Text
  deriving DecidableEq

inductive InspectionEntity where
  | mk (attributes : InspectionAttributes) (geometry : InspectionGeometry)
      (childEntities : Option (List InspectionEntity))

namespace InspectionEntity

def attributes : InspectionEntity → InspectionAttributes
  | .mk attributes _ _ => attributes

def handle (entity : InspectionEntity) : Text := entity.attributes.entityRef.handle

end InspectionEntity

structure InspectionLayer where
  name : Text
  isOff : Bool
  isFrozen : Bool
  isLocked : Bool
  colorIndex : Option Int
  linetype : Option Text
  deriving DecidableEq

structure InspectionStyle where
  name : Text
  kind : InspectionStyleKind
  annotative : Bool
  scale : Option RawDouble
  deriving DecidableEq

/-- The key of `StringComparer.Ordinal`. -/
def ordinal (t : Text) : List Nat := t.map UInt16.toNat

/-- Styles are ordered by kind, then by name. -/
def InspectionStyle.key (style : InspectionStyle) : List Nat := style.kind.ctorIdx :: ordinal style.name

end CadHarness.Inspection

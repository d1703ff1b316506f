/-
OfferAnswer/Attribute/Basic.lean

Attributes: what a line with the letter a says of a session or a medium.

The names of attributes are an open vocabulary.  A registered name settles
whether a value follows and how it is read; an attribute with any other name
keeps its name and value as they are.
-/
import OfferAnswer.Attribute.Candidate
import OfferAnswer.Attribute.Payload
import OfferAnswer.Attribute.Source
import OfferAnswer.Attribute.Transport

namespace OfferAnswer

namespace Attribute

/-! ### Kinds of attributes -/

/-- Attributes that have no value. -/
inductive Flag where
  | endOfCandidates
  | iceLite
  | extmapAllowMixed
  | rtcpMux
  | rtcpMuxOnly
  | rtcpReducedSize
  | direction (d : MediaDirection)
  deriving DecidableEq

/-- Attributes whose value is any text. -/
inductive Label where
  | icePassword
  | iceUser
  | mid
  | streamSemantic
  deriving DecidableEq

/-- Attributes whose value is an integer that is not negative. -/
inductive Quantity where
  | packetTime
  | maxPacketTime
  | sctpPort
  | maxMessageSize
  deriving DecidableEq

/-- The registered kinds of attributes. -/
inductive Kind where
  | flag (f : Flag)
  | label (l : Label)
  | quantity (q : Quantity)
  | candidate
  | certificate
  | group
  | iceOptions
  | setup
  | extension
  | rtpMap
  | formatParameters
  | feedback
  | controlPort
  | mediaStream
  | source
  | sourceGroup
  | streamId
  | simulcast
  deriving DecidableEq

instance : Vocabulary Kind where
  title := "attribute"
  members := [
    .candidate, .flag .endOfCandidates, .certificate, .group, .flag .iceLite, .iceOptions,
    .label .icePassword, .label .iceUser, .label .mid, .setup, .extension,
    .flag .extmapAllowMixed, .rtpMap, .formatParameters, .feedback, .controlPort,
    .flag .rtcpMux, .flag .rtcpMuxOnly, .flag .rtcpReducedSize, .flag (.direction .recvOnly),
    .flag (.direction .sendRecv), .flag (.direction .sendOnly), .flag (.direction .inactive),
    .mediaStream, .label .streamSemantic, .source, .sourceGroup, .streamId, .simulcast,
    .quantity .packetTime, .quantity .maxPacketTime, .quantity .sctpPort,
    .quantity .maxMessageSize]
  spelling
    | .flag .endOfCandidates => "end-of-candidates".toList
    | .flag .iceLite => "ice-lite".toList
    | .flag .extmapAllowMixed => "extmap-allow-mixed".toList
    | .flag .rtcpMux => "rtcp-mux".toList
    | .flag .rtcpMuxOnly => "rtcp-mux-only".toList
    | .flag .rtcpReducedSize => "rtcp-rsize".toList
    | .flag (.direction d) => Vocabulary.spelling d
    | .label .icePassword => "ice-pwd".toList
    | .label .iceUser => "ice-ufrag".toList
    | .label .mid => "mid".toList
    | .label .streamSemantic => "msid-semantic".toList
    | .quantity .packetTime => "ptime".toList
    | .quantity .maxPacketTime => "maxptime".toList
    | .quantity .sctpPort => "sctp-port".toList
    | .quantity .maxMessageSize => "max-message-size".toList
    | .candidate => "candidate".toList
    | .certificate => "fingerprint".toList
    | .group => "group".toList
    | .iceOptions => "ice-options".toList
    | .setup => "setup".toList
    | .extension => "extmap".toList
    | .rtpMap => "rtpmap".toList
    | .formatParameters => "fmtp".toList
    | .feedback => "rtcp-fb".toList
    | .controlPort => "rtcp".toList
    | .mediaStream => "msid".toList
    | .source => "ssrc".toList
    | .sourceGroup => "ssrc-group".toList
    | .streamId => "rid".toList
    | .simulcast => "simulcast".toList
  complete k := by
    cases k with
    | flag f =>
      cases f with
      | direction d => cases d <;> decide
      | _ => decide
    | label l => cases l <;> decide
    | quantity q => cases q <;> decide
    | _ => decide
  spelling_inj := by decide +kernel

end Attribute

/-- An attribute. -/
inductive Attribute where
  | flag (f : Attribute.Flag)
  | label (l : Attribute.Label) (value : Text)
  | quantity (q : Attribute.Quantity) (value : Int)
  | candidate (c : Candidate)
  | certificate (h : CertificateHash)
  | group (g : MediaGroup)
  | iceOptions (options : List (Token IceOption))
  | setup (role : SetupRole)
  | extension (e : ExtensionMap)
  | rtpMap (m : RtpMap)
  | formatParameters (p : FormatParameters)
  | feedback (f : Feedback)
  | controlPort (c : ControlPort)
  | mediaStream (m : MediaStream)
  | source (a : SourceAttribute)
  | sourceGroup (g : SourceGroup)
  | streamId (s : StreamId)
  | simulcast (s : Simulcast)
  /-- An attribute with an unregistered name. -/
  | other (name : Text) (value : Option Text)
  deriving BEq

namespace Attribute

/-- The registered kind. -/
def kind? : Attribute → Option Kind
  | flag f => some (.flag f)
  | label l _ => some (.label l)
  | quantity q _ => some (.quantity q)
  | candidate _ => some .candidate
  | certificate _ => some .certificate
  | group _ => some .group
  | iceOptions _ => some .iceOptions
  | setup _ => some .setup
  | extension _ => some .extension
  | rtpMap _ => some .rtpMap
  | formatParameters _ => some .formatParameters
  | feedback _ => some .feedback
  | controlPort _ => some .controlPort
  | mediaStream _ => some .mediaStream
  | source _ => some .source
  | sourceGroup _ => some .sourceGroup
  | streamId _ => some .streamId
  | simulcast _ => some .simulcast
  | other _ _ => none

def isFlag : Attribute → Bool
  | flag _ => true
  | _ => false

/-! ### Writing -/

/-- The name, as written. -/
def name (a : Attribute) : Text :=
  match a with
  | other name _ => name
  | a => (a.kind?.map Vocabulary.spelling).getD []

/-- The value, as written. -/
def value? : Attribute → Option Text
  | flag _ => none
  | label _ value => some value
  | quantity _ value => some (Decimal.text value)
  | candidate c => some c.text
  | certificate h => some h.text
  | group g => some g.text
  | iceOptions options => some (Text.unwords (options.map Token.text))
  | setup role => some (Vocabulary.spelling role)
  | extension e => some e.text
  | rtpMap m => some m.text
  | formatParameters p => some p.text
  | feedback f => some f.text
  | controlPort c => some c.text
  | mediaStream m => some m.text
  | source a => some a.text
  | sourceGroup g => some g.text
  | streamId s => some s.text
  | simulcast s => some s.text
  | other _ value => value

/-- A name, and a value after a colon. -/
def nameValueText (name : Text) : Option Text → Text
  | some value => name ++ ':' :: value
  | none => name

/-- The attribute as written. -/
def text (a : Attribute) : Text := nameValueText a.name a.value?

/-! ### Reading -/

/-- Why an attribute cannot be read. -/
inductive Fault where
  | missingName (raw : Option Text)
  | unwantedValue (name raw : Text)
  | missingValue (name : Text)
  | shape (fault : ShapeFault)
  | value (name raw : Text) (fault : ValueFault)

def Fault.message : Fault → String
  | missingName raw =>
    "Missing attribute name: :" ++ (raw.map Text.toString).getD "None"
  | unwantedValue name raw =>
    "Attribute " ++ name.toString ++ " is a flag, but got a value: " ++ raw.toString
  | missingValue name => "Attribute " ++ name.toString ++ " is not a flag, but got no value"
  | shape fault => fault.message
  | value name raw fault =>
    "Invalid " ++ name.toString ++ " attribute value " ++ Text.quoted raw ++ ": "
      ++ fault.message

/-- The options of a value; an empty value has none. -/
def iceOptionsOf (raw : Text) : List (Token IceOption) :=
  if raw = [] then [] else (Text.words raw).map Token.ofText

/-- Read the value of an attribute of a kind; a flag has none to read. -/
def readValue (k : Kind) (raw : Text) : Except CodecFault Attribute :=
  match k with
  | .flag f => .ok (flag f)
  | .label l => .ok (label l raw)
  | .quantity q => quantity q <$> integer .natural raw
  | .candidate => candidate <$> Candidate.read raw
  | .certificate => certificate <$> CertificateHash.read raw
  | .group => group <$> MediaGroup.read raw
  | .iceOptions => .ok (iceOptions (iceOptionsOf raw))
  | .setup => setup <$> word raw
  | .extension => extension <$> ExtensionMap.read raw
  | .rtpMap => rtpMap <$> RtpMap.read raw
  | .formatParameters => formatParameters <$> FormatParameters.read raw
  | .feedback => feedback <$> Feedback.read raw
  | .controlPort => controlPort <$> ControlPort.read raw
  | .mediaStream => mediaStream <$> MediaStream.read raw
  | .source => source <$> SourceAttribute.read raw
  | .sourceGroup => sourceGroup <$> SourceGroup.read raw
  | .streamId => streamId <$> StreamId.read raw
  | .simulcast => simulcast <$> Simulcast.read raw

/-- A fault of the codec, with the name and value where it was found. -/
def CodecFault.within (name raw : Text) : CodecFault → Fault
  | .shape fault => .shape fault
  | .value fault => .value name raw fault

/-- The attribute with a name, in any case, and a value. -/
def ofNameValue (name : Text) (raw : Option Text) : Except Fault Attribute :=
  if name = [] then .error (.missingName raw)
  else
    match Vocabulary.find? (κ := Kind) name, raw with
    | none, raw => .ok (other name raw)
    | some (.flag f), none => .ok (flag f)
    | some (.flag _), some raw => .error (.unwantedValue name raw)
    | some _, none => .error (.missingValue name)
    | some k, some raw => (readValue k raw).mapError (CodecFault.within name raw)

/-- The attribute that a text stands for: its name, and its value after the
first colon. -/
def ofText (t : Text) : Except Fault Attribute :=
  let (name, value) := Text.cut ':' t
  ofNameValue name value

end Attribute

end OfferAnswer

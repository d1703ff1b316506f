/-
OfferAnswer/Attribute/View.lean

Attributes seen as one of their kinds.  Each view picks the attributes of a
kind out of a list, in their order.
-/
import OfferAnswer.Attribute.List

namespace OfferAnswer

namespace Attribute

/-- The value under one of the labels. -/
def labelled? (l : Label) : Attribute → Option Text
  | label l' value => if l' = l then some value else none
  | _ => none

def candidate? : Attribute → Option Candidate
  | candidate c => some c
  | _ => none

def certificate? : Attribute → Option CertificateHash
  | certificate h => some h
  | _ => none

def iceOptions? : Attribute → Option (List (Token IceOption))
  | iceOptions options => some options
  | _ => none

def setup? : Attribute → Option SetupRole
  | setup role => some role
  | _ => none

def extension? : Attribute → Option ExtensionMap
  | extension e => some e
  | _ => none

def rtpMap? : Attribute → Option RtpMap
  | rtpMap m => some m
  | _ => none

def formatParameters? : Attribute → Option FormatParameters
  | formatParameters p => some p
  | _ => none

def feedback? : Attribute → Option Feedback
  | feedback f => some f
  | _ => none

def source? : Attribute → Option SourceAttribute
  | source a => some a
  | _ => none

def sourceGroup? : Attribute → Option SourceGroup
  | sourceGroup g => some g
  | _ => none

def streamId? : Attribute → Option StreamId
  | streamId s => some s
  | _ => none

end Attribute

namespace AttributeList

def candidates (as : AttributeList) : List Candidate := as.filterMap Attribute.candidate?

def certificates (as : AttributeList) : List CertificateHash :=
  as.filterMap Attribute.certificate?

def extensions (as : AttributeList) : List ExtensionMap := as.filterMap Attribute.extension?

def rtpMaps (as : AttributeList) : List RtpMap := as.filterMap Attribute.rtpMap?

def formatParameters (as : AttributeList) : List FormatParameters :=
  as.filterMap Attribute.formatParameters?

def feedback (as : AttributeList) : List Feedback := as.filterMap Attribute.feedback?

def sources (as : AttributeList) : List SourceAttribute := as.filterMap Attribute.source?

def sourceGroups (as : AttributeList) : List SourceGroup := as.filterMap Attribute.sourceGroup?

def streamIds (as : AttributeList) : List StreamId := as.filterMap Attribute.streamId?

/-- Whether a flag is set. -/
def hasFlag (as : AttributeList) (f : Attribute.Flag) : Bool := as.hasKind (.flag f)

end AttributeList

end OfferAnswer

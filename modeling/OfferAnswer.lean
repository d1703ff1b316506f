import OfferAnswer.Attribute.Basic
import OfferAnswer.Attribute.Candidate
import OfferAnswer.Attribute.Codec
import OfferAnswer.Attribute.List
import OfferAnswer.Attribute.Map
import OfferAnswer.Attribute.Payload
import OfferAnswer.Attribute.Source
import OfferAnswer.Attribute.Transport
import OfferAnswer.Attribute.View
import OfferAnswer.Bundle.Answer
import OfferAnswer.Bundle.Basic
import OfferAnswer.Bundle.Encoding
import OfferAnswer.Bundle.Error
import OfferAnswer.Bundle.Media
import OfferAnswer.Bundle.Payload
import OfferAnswer.Cache
import OfferAnswer.Capability
import OfferAnswer.Decimal
import OfferAnswer.Document.Basic
import OfferAnswer.Document.Edit
import OfferAnswer.Document.Error
import OfferAnswer.Document.Order
import OfferAnswer.Document.Reader
import OfferAnswer.Document.Section
import OfferAnswer.Document.Worksheet
import OfferAnswer.Duration
import OfferAnswer.Entropy
import OfferAnswer.Field.Basic
import OfferAnswer.Field.Media
import OfferAnswer.Field.Session
import OfferAnswer.Field.Time
import OfferAnswer.Fingerprint
import OfferAnswer.Index
import OfferAnswer.IpAddress
import OfferAnswer.Metadata
import OfferAnswer.Negotiation.Basic
import OfferAnswer.Negotiation.Engine
import OfferAnswer.Negotiation.Parameters
import OfferAnswer.OrderedMap
import OfferAnswer.Proofs.Attribute.Basic
import OfferAnswer.Proofs.Attribute.Candidate
import OfferAnswer.Proofs.Attribute.Codec
import OfferAnswer.Proofs.Attribute.Equality
import OfferAnswer.Proofs.Attribute.Map
import OfferAnswer.Proofs.Attribute.Payload
import OfferAnswer.Proofs.Attribute.Recoverable
import OfferAnswer.Proofs.Attribute.Source
import OfferAnswer.Proofs.Attribute.Transport
import OfferAnswer.Proofs.Attribute.View
import OfferAnswer.Proofs.Bundle.Answer
import OfferAnswer.Proofs.Bundle.Conditions
import OfferAnswer.Proofs.Bundle.Encoding
import OfferAnswer.Proofs.Bundle.Faults
import OfferAnswer.Proofs.Bundle.Joining
import OfferAnswer.Proofs.Bundle.Media
import OfferAnswer.Proofs.Bundle.Noninterference
import OfferAnswer.Proofs.Bundle.Offered
import OfferAnswer.Proofs.Bundle.Order
import OfferAnswer.Proofs.Bundle.Payload
import OfferAnswer.Proofs.Bundle.Reachable
import OfferAnswer.Proofs.Bundle.Restriction
import OfferAnswer.Proofs.Bundle.Sender
import OfferAnswer.Proofs.Bundle.Simulcast
import OfferAnswer.Proofs.Bundle.Table
import OfferAnswer.Proofs.Bundle.Types
import OfferAnswer.Proofs.Bundle.Written
import OfferAnswer.Proofs.Canonical.Attribute
import OfferAnswer.Proofs.Canonical.Document
import OfferAnswer.Proofs.Canonical.Field
import OfferAnswer.Proofs.Canonical.Value
import OfferAnswer.Proofs.Case
import OfferAnswer.Proofs.Collapse
import OfferAnswer.Proofs.Decimal
import OfferAnswer.Proofs.Document.Acceptance
import OfferAnswer.Proofs.Document.Appending
import OfferAnswer.Proofs.Document.Assembly
import OfferAnswer.Proofs.Document.Composition
import OfferAnswer.Proofs.Document.Cut
import OfferAnswer.Proofs.Document.Edit
import OfferAnswer.Proofs.Document.Entries
import OfferAnswer.Proofs.Document.Equality
import OfferAnswer.Proofs.Document.Field
import OfferAnswer.Proofs.Document.Grammar
import OfferAnswer.Proofs.Document.LineByLine
import OfferAnswer.Proofs.Document.Lines
import OfferAnswer.Proofs.Document.Located
import OfferAnswer.Proofs.Document.Parts
import OfferAnswer.Proofs.Document.Reader
import OfferAnswer.Proofs.Document.Reread
import OfferAnswer.Proofs.Document.Slots
import OfferAnswer.Proofs.Document.Sound
import OfferAnswer.Proofs.Document.Written
import OfferAnswer.Proofs.Field.Basic
import OfferAnswer.Proofs.Field.Media
import OfferAnswer.Proofs.Field.Session
import OfferAnswer.Proofs.Field.Time
import OfferAnswer.Proofs.Fingerprint
import OfferAnswer.Proofs.Index
import OfferAnswer.Proofs.LineCount
import OfferAnswer.Proofs.LineEnding
import OfferAnswer.Proofs.Negotiation.Parameters
import OfferAnswer.Proofs.Negotiation.Trace
import OfferAnswer.Proofs.Negotiation.Transports
import OfferAnswer.Proofs.OrderedMap
import OfferAnswer.Proofs.Outcome
import OfferAnswer.Proofs.Text
import OfferAnswer.Proofs.Utf8
import OfferAnswer.Proofs.Vocabulary
import OfferAnswer.Properties
import OfferAnswer.PublicAddress
import OfferAnswer.Text.Basic
import OfferAnswer.Text.Blank
import OfferAnswer.Text.Case
import OfferAnswer.Text.CaseContext
import OfferAnswer.Text.CaseTable
import OfferAnswer.Text.Hex
import OfferAnswer.Text.Lines
import OfferAnswer.Text.Quoted
import OfferAnswer.Text.Ranges
import OfferAnswer.Text.Unprintable
import OfferAnswer.Text.Utf8
import OfferAnswer.Value
import OfferAnswer.ValueFault
import OfferAnswer.Vocabulary
import OfferAnswer.Vocabulary.Catalog
import OfferAnswer.Vocabulary.Connectivity
import OfferAnswer.Vocabulary.Rtp
import OfferAnswer.Vocabulary.Session
import OfferAnswer.Proofs.Document.Incomplete
import OfferAnswer.Proofs.Field.Seconds
import OfferAnswer.Proofs.Attribute.PairOrder
import OfferAnswer.Proofs.Catalog
import OfferAnswer.Proofs.IpAddress
import OfferAnswer.Proofs.PublicAddress
import OfferAnswer.Proofs.Numeral

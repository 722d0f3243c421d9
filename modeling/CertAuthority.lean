import CertAuthority.AlgorithmIdentifier
import CertAuthority.AltName.Basic
import CertAuthority.AltName.GeneralName
import CertAuthority.Base64
import CertAuthority.Certificate.Attach
import CertAuthority.Certificate.Basic
import CertAuthority.Certificate.Encoded
import CertAuthority.Certificate.Issue
import CertAuthority.Certificate.Issuer
import CertAuthority.Certificate.Serial
import CertAuthority.Certificate.Validity
import CertAuthority.Certificate.Verify
import CertAuthority.Cipher.Aes
import CertAuthority.Cipher.Block
import CertAuthority.Cipher.Cbc
import CertAuthority.Config.Authority
import CertAuthority.Config.ParsedProfile
import CertAuthority.Config.Profile
import CertAuthority.Der.Field
import CertAuthority.Der.Tlv
import CertAuthority.Der.Value
import CertAuthority.Error
import CertAuthority.Extension.Access
import CertAuthority.Extension.Basic
import CertAuthority.Extension.Constraints
import CertAuthority.Extension.DirectoryAttribute
import CertAuthority.Extension.KeyIdentifier
import CertAuthority.Extension.Plugin
import CertAuthority.Extension.Policies
import CertAuthority.Extension.QcStatement
import CertAuthority.Extension.Registry
import CertAuthority.Extension.Resolve
import CertAuthority.Hash.Blocks
import CertAuthority.Hash.Sha1
import CertAuthority.Hash.Sha256
import CertAuthority.Hash.Sha512
import CertAuthority.KeyUsage
import CertAuthority.Lenient.Element
import CertAuthority.Lenient.Signed
import CertAuthority.Lenient.Value
import CertAuthority.Name.AttributeType
import CertAuthority.Name.Basic
import CertAuthority.Name.Distinguished
import CertAuthority.Octets
import CertAuthority.Oid
import CertAuthority.Oid.Known
import CertAuthority.Pem
import CertAuthority.PublicKeyInfo
import CertAuthority.Purpose
import CertAuthority.Recovery.Envelope
import CertAuthority.Recovery.KeyPair
import CertAuthority.Recovery.Recipient
import CertAuthority.Recovery.Wrapped
import CertAuthority.Request
import CertAuthority.RevocationList.Basic
import CertAuthority.RevocationList.Issue
import CertAuthority.Rsa.Arithmetic
import CertAuthority.Rsa.Error
import CertAuthority.Rsa.Pkcs1
import CertAuthority.Rsa.PrivateKey
import CertAuthority.Rsa.PublicKey
import CertAuthority.SignatureAlgorithm
import CertAuthority.SigningKey
import CertAuthority.SoftToken
import CertAuthority.Text.Blank
import CertAuthority.Text.Charset
import CertAuthority.Text.Escaped
import CertAuthority.Text.Hex
import CertAuthority.Text.Invisible
import CertAuthority.Text.IpAddress
import CertAuthority.Text.ParseError
import CertAuthority.Text.Quoted
import CertAuthority.Text.Utf16
import CertAuthority.Time.Civil
import CertAuthority.Time.Timestamp
import CertAuthority.Toml.Document
import CertAuthority.Toml.Number
import CertAuthority.Toml.Setting
import CertAuthority.Toml.Text
import CertAuthority.Toml.Value
import CertAuthority.Proofs.Der.Tlv
import CertAuthority.Proofs.Der.Value
import CertAuthority.Proofs.Octets
import CertAuthority.Proofs.Time.Civil
import CertAuthority.Proofs.Certificate.Parts
import CertAuthority.Proofs.Time.Timestamp
import CertAuthority.Proofs.Certificate.RoundTrip
import CertAuthority.Proofs.Certificate.Run
import CertAuthority.Proofs.Certificate.Issue
import CertAuthority.Proofs.Certificate.Validity
import CertAuthority.Proofs.Lenient.Element
import CertAuthority.Proofs.Lenient.Signed
import CertAuthority.Proofs.RevocationList.Run
import CertAuthority.Proofs.Rsa.Arithmetic
import CertAuthority.Proofs.Certificate.Verify
import CertAuthority.Proofs.Certificate.Fields
import CertAuthority.Proofs.Lenient.Certificate
import CertAuthority.Proofs.Certificate.Attach
import CertAuthority.Proofs.Extension.Resolve
import CertAuthority.Proofs.Config.Loaded
import CertAuthority.Proofs.Extension.Loaded
import CertAuthority.Proofs.Lenient.Name
import CertAuthority.Proofs.Certificate.Chain
import CertAuthority.Proofs.Certificate.Signer
import CertAuthority.Proofs.Certificate.Permission
import CertAuthority.Proofs.Text.Content
import CertAuthority.Proofs.Extension.Order
import CertAuthority.Proofs.Der.Integer
import CertAuthority.Proofs.RevocationList.RoundTrip
import CertAuthority.Proofs.RevocationList.Contents
import CertAuthority.Proofs.Cipher.Aes
import CertAuthority.Proofs.Cipher.Cbc
import CertAuthority.Proofs.Der.Length
import CertAuthority.Proofs.Rsa.Transport
import CertAuthority.Proofs.Recovery.Envelope
import CertAuthority.Proofs.Recovery.Wrapped
import CertAuthority.Proofs.Text.Pieces
import CertAuthority.Proofs.Text.Enclosed
import CertAuthority.Proofs.Oid.Text
import CertAuthority.Proofs.Name.Label
import CertAuthority.Proofs.Name.Printed
import CertAuthority.Proofs.Name.Quoted
import CertAuthority.Proofs.Lenient.Time
import CertAuthority.Proofs.Lenient.Written
import CertAuthority.Proofs.Rsa.Acceptance
import CertAuthority.Proofs.Rsa.Signature
import CertAuthority.Proofs.Lenient.Structure
import CertAuthority.Proofs.Certificate.Blame
import CertAuthority.Proofs.Certificate.Honest
import CertAuthority.Proofs.Text.Spaced
import CertAuthority.Proofs.Name.Joined
import CertAuthority.Proofs.SoftToken.History
import CertAuthority.Proofs.Cipher.Decrypted
import CertAuthority.Proofs.Recovery.Altered
import CertAuthority.Proofs.Certificate.Root
import CertAuthority.Proofs.Name.Encoded
import CertAuthority.Proofs.Name.Escaped
import CertAuthority.Proofs.Base64
import CertAuthority.Proofs.Pem
import CertAuthority.Proofs.RevocationList.AuthorityKey
import CertAuthority.Proofs.Certificate.Expiry
import CertAuthority.Proofs.Recovery.Failure
import CertAuthority.Proofs.Certificate.Subject
import CertAuthority.Proofs.AltName.Encoded
import CertAuthority.Proofs.Certificate.AltNames
import CertAuthority.Proofs.Der.Ascending
import CertAuthority.Proofs.Extension.CrlIssuers
import CertAuthority.Proofs.Extension.Policies
import CertAuthority.Proofs.Recovery.Added
import CertAuthority.Proofs.Time.Order
import CertAuthority.Proofs.Time.Shown
import CertAuthority.Proofs.Certificate.Times
import CertAuthority.Proofs.Pem.Accepted
import CertAuthority.Proofs.Extension.Notices
import CertAuthority.Proofs.Certificate.Serial
import CertAuthority.Proofs.Extension.Failure
import CertAuthority.Proofs.Lenient.Layout
import CertAuthority.Proofs.Certificate.Accepted
import CertAuthority.Proofs.Text.Hex
import CertAuthority.Proofs.Extension.Fixed
import CertAuthority.Proofs.Text.Decomposed
import CertAuthority.Proofs.Extension.Registered
import CertAuthority.Proofs.Extension.DirectoryAttributes

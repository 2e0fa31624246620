import SignalisCore.Library.LittleEndian
import SignalisCore.Library.PrimeCertificate
import SignalisCore.Library.MontgomeryCurve
import SignalisCore.Library.QuadraticTwist
import SignalisCore.Library.SchnorrGroup
import SignalisCore.Library.BlockHash
import SignalisCore.Library.Sha2
import SignalisCore.Library.Keccak
import SignalisCore.Library.Hmac
import SignalisCore.Library.Segment
import SignalisCore.Library.Binary64
import SignalisCore.Library.EcmaNumber
import SignalisCore.Library.Utf16
import SignalisCore.Library.Ascii
import SignalisCore.Library.Base16
import SignalisCore.Library.Base64
import SignalisCore.Library.ByteXor
import SignalisCore.Library.Aead
import SignalisCore.Library.Cbc
import SignalisCore.Library.Aes
import SignalisCore.Library.Gcm
import SignalisCore.Library.ChaChaPoly
import SignalisCore.Library.PacketChannel
import SignalisCore.Dalek.Primes
import SignalisCore.Dalek.Interface
import SignalisCore.Dalek.Edwards25519
import SignalisCore.Dalek.Twist
import SignalisCore.Crates.Curve25519
import SignalisCore.Crates.ZeroSecret
import SignalisCore.Crates.PeerKeys
import SignalisCore.Crates.XEd25519
import SignalisCore.Crates.Clamping
import SignalisCore.Crates.XEd25519Spec
import SignalisCore.Crates.XEd25519SmallOrder
import SignalisCore.Crates.XEd25519Binding
import SignalisCore.Crates.XEd25519Signer
import SignalisCore.Crates.Ed25519
import SignalisCore.Crates.Ed25519Signer
import SignalisCore.Crates.Primitives
import SignalisCore.Crates.KeyMaterial
import SignalisCore.Crates.Aead
import SignalisCore.Crates.Encryption
import SignalisCore.Crates.Hashes
import SignalisCore.Crates.Encoding
import SignalisCore.Crates.Hex
import SignalisCore.Crates.Base64
import SignalisCore.Node.Bindings
import SignalisCore.Node.Encryption
import SignalisCore.Node.Signing
import SignalisCore.Node.Hashes
import SignalisCore.Facade.Value
import SignalisCore.Facade.Validators
import SignalisCore.Facade.Core
import SignalisCore.Facade.Utils
import SignalisCore.Facade.KeyAgreement
import SignalisCore.Facade.Verifiers
import SignalisCore.Facade.HkdfGuards
import SignalisCore.Facade.DeriveMultiple
import SignalisCore.Facade.SplitConcat
import SignalisCore.Facade.OutputLength
import SignalisCore.Facade.WorkFactors
import SignalisCore.Facade.Utf8
import SignalisCore.Facade.HexAgreement
import SignalisCore.Facade.ErrorClasses
import SignalisCore.Facade.Base64Agreement
import SignalisCore.Facade.Encryption
import SignalisCore.Facade.AeadInverse
import SignalisCore.Facade.CbcInverse
import SignalisCore.Facade.Signing
import SignalisCore.Facade.SharedSecrets
import SignalisCore.Facade.Session
import SignalisCore.Facade.Hashing
import SignalisCore.Facade.Comparisons
import SignalisCore.Facade.EncryptThenMac
import SignalisCore.Facade.KeyStreams
import SignalisCore.Facade.TripleDH
import SignalisCore.Facade.EncryptedFile

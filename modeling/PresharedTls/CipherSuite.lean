import PresharedTls.Version

/-!
# Cipher suites

The pre-shared-key suites and the algorithms each one names: the bulk cipher of its records, the
hash of its record MAC, and the hash of its pseudorandom function.
-/

namespace PresharedTls

inductive BulkCipher where
  /-- Integrity only. -/
  | null
  | aes128Cbc
  | aes256Cbc
  | aes128Gcm
  | aes256Gcm
  deriving DecidableEq

namespace BulkCipher

def keyLength : BulkCipher → Nat
  | null => 0
  | aes128Cbc | aes128Gcm => 16
  | aes256Cbc | aes256Gcm => 32

/-- The ciphers with padding, the only ones on which the order of encryption and MAC has an effect. -/
def isBlockCipher : BulkCipher → Bool
  | aes128Cbc | aes256Cbc => true
  | _ => false

def name : BulkCipher → String
  | null => "Null"
  | aes128Cbc => "Aes128Cbc"
  | aes256Cbc => "Aes256Cbc"
  | aes128Gcm => "Aes128Gcm"
  | aes256Gcm => "Aes256Gcm"

end BulkCipher

/-- Hash of the pseudorandom function from TLS 1.2 on; older versions combine MD5 and SHA-1. -/
inductive PrfHash where
  | sha256
  | sha384
  deriving DecidableEq

def PrfHash.name : PrfHash → String
  | sha256 => "Sha256"
  | sha384 => "Sha384"

inductive MacHash where
  | sha1
  | sha256
  | sha384
  deriving DecidableEq

namespace MacHash

def outputLength : MacHash → Nat
  | sha1 => 20
  | sha256 => 32
  | sha384 => 48

def name : MacHash → String
  | sha1 => "Sha1"
  | sha256 => "Sha256"
  | sha384 => "Sha384"

end MacHash

inductive CipherSuite where
  | aes128CbcSha
  | aes256CbcSha
  | aes128GcmSha256
  | aes256GcmSha384
  | aes128CbcSha256
  | aes256CbcSha384
  | nullSha256
  | nullSha384
  deriving DecidableEq

namespace CipherSuite

def code : CipherSuite → UInt16
  | aes128CbcSha => 0x008C
  | aes256CbcSha => 0x008D
  | aes128GcmSha256 => 0x00A8
  | aes256GcmSha384 => 0x00A9
  | aes128CbcSha256 => 0x00AE
  | aes256CbcSha384 => 0x00AF
  | nullSha256 => 0x00B0
  | nullSha384 => 0x00B1

def name : CipherSuite → String
  | aes128CbcSha => "TLS_PSK_WITH_AES_128_CBC_SHA"
  | aes256CbcSha => "TLS_PSK_WITH_AES_256_CBC_SHA"
  | aes128GcmSha256 => "TLS_PSK_WITH_AES_128_GCM_SHA256"
  | aes256GcmSha384 => "TLS_PSK_WITH_AES_256_GCM_SHA384"
  | aes128CbcSha256 => "TLS_PSK_WITH_AES_128_CBC_SHA256"
  | aes256CbcSha384 => "TLS_PSK_WITH_AES_256_CBC_SHA384"
  | nullSha256 => "TLS_PSK_WITH_NULL_SHA256"
  | nullSha384 => "TLS_PSK_WITH_NULL_SHA384"

/-- All suites, strongest first: what an endpoint offers or supports unless told otherwise. -/
def all : List CipherSuite :=
  [aes256GcmSha384, aes128GcmSha256, aes256CbcSha384, aes128CbcSha256, aes256CbcSha, aes128CbcSha,
    nullSha384, nullSha256]

def ofCode? (code : UInt16) : Option CipherSuite :=
  all.find? (·.code = code)

def bulkCipher : CipherSuite → BulkCipher
  | aes128CbcSha | aes128CbcSha256 => .aes128Cbc
  | aes256CbcSha | aes256CbcSha384 => .aes256Cbc
  | aes128GcmSha256 => .aes128Gcm
  | aes256GcmSha384 => .aes256Gcm
  | nullSha256 | nullSha384 => .null

/-- The SHA-1 suites are older than TLS 1.2 and take its default, SHA-256. -/
def prfHash : CipherSuite → PrfHash
  | aes256GcmSha384 | aes256CbcSha384 | nullSha384 => .sha384
  | _ => .sha256

/-- A GCM suite has none: the tag is part of the cipher. -/
def macHash? : CipherSuite → Option MacHash
  | aes128GcmSha256 | aes256GcmSha384 => none
  | aes128CbcSha | aes256CbcSha => some .sha1
  | aes128CbcSha256 | nullSha256 => some .sha256
  | aes256CbcSha384 | nullSha384 => some .sha384

def hasBulkCipher (suite : CipherSuite) : Bool :=
  suite.bulkCipher ≠ .null

/-- The oldest version the suite may be negotiated with: the SHA-2 suites and GCM need TLS 1.2. -/
def minimumVersion : CipherSuite → Version
  | aes128CbcSha | aes256CbcSha => .tls10
  | _ => .tls12

@[simp] theorem ofCode?_code (suite : CipherSuite) : ofCode? suite.code = some suite := by
  cases suite <;> decide

theorem code_of_ofCode? {code : UInt16} {suite : CipherSuite} (h : ofCode? code = some suite) :
    suite.code = code := by
  simpa using List.find?_some h

end CipherSuite

end PresharedTls

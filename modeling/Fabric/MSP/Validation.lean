import Fabric.Protos

/-!
# Validation of identities

A membership service provider accepts an identity if its certificate chains to
the roots of the provider below a certification authority that certifies no
other authority, if no revocation list of that authority names it, and if one of
its organizational units is accepted.

The certificates of the standard library are a parameter.  Their verification
depends on the certificate and on the pools of roots and intermediate
authorities: it is asked for the first second of validity of the certificate,
whatever the time.
-/

namespace Fabric.MSP.Validation

open Library Outcome ByteString

/-! ## Certificates -/

/-- The algorithms that certificates are signed with. -/
inductive SignatureAlgorithm where
  | ecdsaWithSHA1
  | ecdsaWithSHA256
  | ecdsaWithSHA384
  | ecdsaWithSHA512
  | other
deriving DecidableEq

/-- An extension of a certificate. -/
structure Extension where
  id : List Nat
  value : Bytes
deriving DecidableEq

/-- What is read of a certificate. -/
structure Certificate where
  raw : Bytes
  serialNumber : Int
  isCA : Bool
  organizationalUnit : List GoString
  extensions : List Extension
  signatureAlgorithm : SignatureAlgorithm
  signature : Bytes
deriving DecidableEq

/-- A revocation list, with the serial numbers in it. -/
structure CertificateList where
  raw : Bytes
  extensions : List Extension
  revokedCertificates : List Int
deriving DecidableEq

/-- The certificates that a chain may be made of. -/
structure VerifyOptions where
  roots : List Certificate
  intermediates : List Certificate
deriving DecidableEq

/--
What is used of the packages for certificates and their encodings.  A parsed
certificate keeps the bytes that it was parsed from.
-/
structure X509 where
  decodePem : Bytes → Option Bytes
  parseCertificate : Bytes → Option Certificate
  raw_of_parseCertificate : ∀ {der : Bytes} {cert : Certificate},
      parseCertificate der = some cert → cert.raw = der
  parseCRL : Bytes → Option CertificateList
  verify : VerifyOptions → Certificate → Option (List (List Certificate))
  checkCRLSignature : Certificate → CertificateList → Bool
  unmarshalOctetString : Bytes → Option Bytes
  unmarshalAuthorityKeyIdentifier : Bytes → Option Bytes
  signatureToLowS : Certificate → Bytes → Outcome Unit Bytes
  replaceSignature : Certificate → Bytes → Option Bytes

/-- The primitives for hashes, keys and signers. -/
structure Bccsp where
  hash : GoString → Bytes → Option Bytes
  importsPublicKey : Certificate → Bool
  hasPrivateKey : Certificate → Bool
  importsPrivateKey : Bytes → Bool
  newSigner : Certificate → Bool

/-- Why a provider refuses its definition or an identity. -/
inductive MSPError where
  | nilConfig
  | config
  | nilIdBytes
  | pem
  | parse
  | hash
  | verify
  | chainCount
  | chainLength
  | internalParent
  | noVerifyOptions
  | caAsIdentity
  | subjectKeyIdentifier
  | authorityKeyIdentifier
  | revoked
  | noOrganizationalUnit
  | organizationalUnits
  | sanitize
  | noCACertificates
  | revocationList
  | caCertificate
  | notCA
  | signingIdentity
  | organizationalUnitCertificate
  | admin
  | serializedIdentity
  | mspID
  | publicKey
  | principal
  | differentMSP
  | notAdmin
  | invalidRole
  | identitiesDiffer
  | invalidPrincipal
deriving DecidableEq

namespace X509

variable (x509 : X509)

/-- The certificate is what its bytes are parsed to. -/
def Parsed (cert : Certificate) : Prop :=
  x509.parseCertificate cert.raw = some cert

abbrev ParsedCertificate := { cert : Certificate // x509.Parsed cert }

variable {x509}

theorem parsed_of_parseCertificate {der : Bytes} {cert : Certificate}
    (parses : x509.parseCertificate der = some cert) : x509.Parsed cert := by
  unfold Parsed
  rw [x509.raw_of_parseCertificate parses, parses]

theorem Parsed.eq_of_raw_eq {left right : Certificate}
    (leftParsed : x509.Parsed left) (rightParsed : x509.Parsed right)
    (same : left.raw = right.raw) : left = right := by
  unfold Parsed at leftParsed rightParsed
  rw [same, rightParsed, Option.some.injEq] at leftParsed
  exact leftParsed.symm

variable (x509)

def parse (der : Bytes) : Option x509.ParsedCertificate :=
  match parses : x509.parseCertificate der with
  | none => none
  | some cert => some ⟨cert, parsed_of_parseCertificate parses⟩

/-- Reads a certificate. -/
def getCertFromPem (idBytes : Slice) : Outcome MSPError x509.ParsedCertificate := do
  let idBytes ← ofOption .nilIdBytes idBytes
  let der ← ofOption .pem (x509.decodePem idBytes)
  ofOption .parse (x509.parse der)

/-- The first extension with the given identifier, decoded. -/
def findExtension (extensions : List Extension) (id : List Nat)
    (unmarshal : Bytes → Option Bytes) : Option Bytes :=
  (extensions.find? fun extension => extension.id = id).bind
    fun extension => unmarshal extension.value

def getSubjectKeyIdentifierFromCert (cert : Certificate) : Outcome MSPError Bytes :=
  ofOption .subjectKeyIdentifier
    (findExtension cert.extensions [2, 5, 29, 14] x509.unmarshalOctetString)

def getAuthorityKeyIdentifierFromCrl (crl : CertificateList) : Outcome MSPError Bytes :=
  ofOption .authorityKeyIdentifier (findExtension crl.extensions [2, 5, 29, 35]
      x509.unmarshalAuthorityKeyIdentifier)

/-- An authority that has a subject key identifier. -/
def isCACert (cert : Certificate) : Bool :=
  match x509.getSubjectKeyIdentifierFromCert cert with
  | .ok _ => cert.isCA
  | _ => false

def isECDSASignedCert (cert : Certificate) : Bool :=
  cert.signatureAlgorithm ≠ .other

/-- The certificate with a signature in low-S, parsed again if it changed. -/
def sanitizeECDSASignedCert (cert : x509.ParsedCertificate) (parentCert : Certificate) :
    Outcome MSPError x509.ParsedCertificate := do
  let expectedSig ← (x509.signatureToLowS parentCert cert.val.signature).mapError
      fun _ => MSPError.sanitize
  if cert.val.signature = expectedSig then
    .ok cert
  else
    let newRaw ← ofOption .sanitize (x509.replaceSignature cert expectedSig)
    ofOption .parse (x509.parse newRaw)

section

variable (cert signer : Certificate) (subjectKeyIdentifier : Bytes) (crl : CertificateList)

/-- The list of the signer of a certificate revokes it. -/
def Revokes : Prop :=
  x509.getAuthorityKeyIdentifierFromCrl crl = .ok subjectKeyIdentifier ∧
    cert.serialNumber ∈ crl.revokedCertificates ∧
    x509.checkCRLSignature signer crl = true

/-- Refuse a certificate that a list of its signer revokes. -/
def checkRevocation : Outcome MSPError PUnit := do
  let authorityKeyIdentifier ← x509.getAuthorityKeyIdentifierFromCrl crl
  require (¬ (authorityKeyIdentifier = subjectKeyIdentifier ∧
      cert.serialNumber ∈ crl.revokedCertificates ∧
      x509.checkCRLSignature signer crl = true))
    .revoked

end

variable {x509}

end X509

/-! ## The provider -/

/-- An identity with its certificate, which has been parsed. -/
structure Identity (x509 : X509) where
  id : Bytes
  cert : Certificate
  parsed : x509.Parsed cert

/-- An organizational unit and the chain that vouches for it. -/
structure OUIdentifier where
  organizationalUnitIdentifier : GoString
  certifiersIdentifier : Bytes
deriving DecidableEq

/-- The hash functions of a provider. -/
structure CryptoConfig where
  signatureHashFamily : GoString
  identityIdentifierHashFunction : GoString
deriving DecidableEq

/-- A membership service provider. -/
structure BccspMsp (x509 : X509) where
  name : GoString
  cryptoConfig : CryptoConfig
  opts : Option VerifyOptions
  rootCerts : List (Identity x509)
  intermediateCerts : List (Identity x509)
  admins : List (Identity x509)
  crl : List CertificateList
  certificationTreeInternalNodes : List Bytes
  ouIdentifiers : Std.ExtTreeMap GoString (List Bytes)
  tlsRootCerts : List Slice
  tlsIntermediateCerts : List Slice
  signer : Option (Identity x509)

namespace BccspMsp

variable {x509 : X509} (bccsp : Bccsp) (msp : BccspMsp x509)

/-! ## Chains -/

/-- The options for a certificate, with the pools of the provider. -/
def getValidityOptsForCert : Outcome MSPError VerifyOptions :=
  deref msp.opts

/-- The chain of a certificate, if there is exactly one. -/
def getUniqueValidationChain (cert : Certificate) (opts : VerifyOptions) :
    Outcome MSPError (List Certificate) := do
  let _ ← ofOption .noVerifyOptions msp.opts
  let validationChains ← ofOption .verify (x509.verify opts cert)
  match validationChains with
  | [validationChain] => .ok validationChain
  | _ => .error .chainCount

/-- The chain of a certificate below a leaf of the certification tree. -/
def getValidationChain (cert : Certificate) (isIntermediateChain : Bool) :
    Outcome MSPError (List Certificate) := do
  let opts ← msp.getValidityOptsForCert
  let validationChain ← msp.getUniqueValidationChain cert opts
  require (2 ≤ validationChain.length) .chainLength
  let parentPosition := if isIntermediateChain then 0 else 1
  let parent ← deref validationChain[parentPosition]?
  require (parent.raw ∉ msp.certificationTreeInternalNodes) .internalParent
  .ok validationChain

/-- The chain of an identity that is no authority. -/
def getCertificationChain (id : Identity x509) : Outcome MSPError (List Certificate) := do
  let _ ← ofOption .noVerifyOptions msp.opts
  require (id.cert.isCA = false) .caAsIdentity
  msp.getValidationChain id.cert false

def getCertificationChainIdentifierFromChain (chain : List Certificate) : Outcome MSPError Bytes :=
  ofOption .hash (bccsp.hash msp.cryptoConfig.identityIdentifierHashFunction
      (chain.flatMap Certificate.raw))

/-- The hash of the chain above an identity. -/
def getCertificationChainIdentifier (id : Identity x509) : Outcome MSPError Bytes := do
  let chain ← msp.getCertificationChain id
  msp.getCertificationChainIdentifierFromChain bccsp (chain.drop 1)

/-- The organizational units of an identity; none if there is no chain. -/
def getOrganizationalUnits (id : Identity x509) : Outcome MSPError (List OUIdentifier) :=
  (msp.getCertificationChainIdentifier bccsp id).handle (fun _ => .ok [])
    fun certifiersIdentifier =>
      .ok (id.cert.organizationalUnit.map fun unit =>
          { organizationalUnitIdentifier := unit, certifiersIdentifier })

/-! ## Validating -/

/-- Checks that the signer has not revoked a certificate. -/
def validateCertAgainstChain (cert : Certificate) (validationChain : List Certificate) :
    Outcome MSPError PUnit := do
  let signer ← deref validationChain[1]?
  let subjectKeyIdentifier ← x509.getSubjectKeyIdentifierFromCert signer
  msp.crl.forM (x509.checkRevocation cert signer subjectKeyIdentifier)

/-- A unit of the identity is accepted from its certifiers. -/
def AcceptsUnit (unit : OUIdentifier) : Prop :=
  unit.certifiersIdentifier ∈ (msp.ouIdentifiers[unit.organizationalUnitIdentifier]?).getD []

instance (unit : OUIdentifier) : Decidable (msp.AcceptsUnit unit) :=
  inferInstanceAs (Decidable (_ ∈ _))

/-- Asks for an accepted organizational unit, if any is configured. -/
def validateIdentityOUs (id : Identity x509) : Outcome MSPError PUnit :=
  if msp.ouIdentifiers.isEmpty then
    .ok ⟨⟩
  else do
    let units ← msp.getOrganizationalUnits bccsp id
    if ∃ unit ∈ units, msp.AcceptsUnit unit then
      .ok ⟨⟩
    else if units = [] then .error .noOrganizationalUnit
    else .error .organizationalUnits

/-- Checks the chain, revocation and units. -/
def validateIdentity (id : Identity x509) : Outcome MSPError PUnit := do
  let validationChain ← msp.getCertificationChain id
  msp.validateCertAgainstChain id.cert validationChain
  msp.validateIdentityOUs bccsp id

/-- The check of an identity. -/
def validate (id : Identity x509) : Outcome MSPError PUnit :=
  msp.validateIdentity bccsp id

/-! ## What a valid identity is -/

variable {bccsp msp} {id : Identity x509}

def pools (msp : BccspMsp x509) : VerifyOptions :=
  { roots := msp.rootCerts.map Identity.cert
    intermediates := msp.intermediateCerts.map Identity.cert }

/--
The certificate chains to the roots of the provider below a leaf authority, and
no list of that authority revokes it.
-/
structure IssuedBy
    (msp : BccspMsp x509) (cert signer : Certificate) (chain : List Certificate) : Prop where
  isLeaf : cert.isCA = false
  verified : x509.verify msp.pools cert = some [chain]
  signed : chain[1]? = some signer
  leafAuthority : signer.raw ∉ msp.certificationTreeInternalNodes
  notRevoked : ∃ subjectKeyIdentifier,
      x509.getSubjectKeyIdentifierFromCert signer = .ok subjectKeyIdentifier ∧
        ∀ crl ∈ msp.crl, ¬ x509.Revokes cert signer subjectKeyIdentifier crl

/-- The provider accepts all units, or one of the identity. -/
def HasAcceptedUnit (bccsp : Bccsp) (msp : BccspMsp x509) (id : Identity x509) : Prop :=
  msp.ouIdentifiers.isEmpty = true ∨ ∃ units, msp.getOrganizationalUnits bccsp id = .ok units ∧
      ∃ unit ∈ units, msp.AcceptsUnit unit

theorem hasAcceptedUnit_of_validateIdentityOUs (valid : msp.validateIdentityOUs bccsp id = .ok ⟨⟩) :
    HasAcceptedUnit bccsp msp id := by
  unfold validateIdentityOUs at valid
  split at valid
  case isTrue all => exact .inl all
  case isFalse =>
    rcases bind_ok_iff.mp valid with ⟨units, gets, valid⟩
    split at valid
    case isTrue accepted => exact .inr ⟨units, gets, accepted⟩
    case isFalse =>
      split at valid
      · cases valid
      · cases valid

theorem getUniqueValidationChain_ok
    {cert : Certificate} {opts : VerifyOptions} {chain : List Certificate}
    (gets : msp.getUniqueValidationChain cert opts = .ok chain) :
    x509.verify opts cert = some [chain] := by
  simp only [getUniqueValidationChain, bind_ok_iff, ofOption_ok_iff] at gets
  rcases gets with ⟨_, _, _, verified, gets⟩
  rw [verified]
  split at gets
  · cases gets
    rfl
  · cases gets

theorem exists_signer_of_getCertificationChain {chain : List Certificate}
    (ownPools : msp.opts = some msp.pools) (gets : msp.getCertificationChain id = .ok chain) :
    id.cert.isCA = false ∧ x509.verify msp.pools id.cert = some [chain] ∧
      ∃ signer, chain[1]? = some signer ∧ signer.raw ∉ msp.certificationTreeInternalNodes := by
  simp only [getCertificationChain, getValidationChain, getValidityOptsForCert, bind_ok_iff,
    ofOption_ok_iff, deref_ok_iff, require_ok_iff] at gets
  rcases gets with ⟨_, _, _, isLeaf, opts, hasOpts, _, unique, _, _, signer, signed, _,
      leafAuthority, same⟩
  cases same
  rw [ownPools, Option.some.injEq] at hasOpts
  rw [← hasOpts] at unique
  exact ⟨isLeaf, getUniqueValidationChain_ok unique, signer, signed, leafAuthority⟩

theorem exists_issuedBy_of_validateIdentity (ownPools : msp.opts = some msp.pools)
    (valid : msp.validateIdentity bccsp id = .ok ⟨⟩) :
    ∃ signer chain, IssuedBy msp id.cert signer chain := by
  simp only [validateIdentity, bind_ok_iff] at valid
  rcases valid with ⟨chain, gets, _, against, _⟩
  rcases exists_signer_of_getCertificationChain ownPools gets with
    ⟨isLeaf, verified, signer, signed, leafAuthority⟩
  simp only [validateCertAgainstChain, signed, deref_some, ok_bind, bind_ok_iff] at against
  rcases against with ⟨identifier, found, passes⟩
  refine ⟨signer, chain, isLeaf, verified, signed, leafAuthority, ?_⟩
  refine ⟨identifier, found, ?_⟩
  rintro crl member ⟨same, revoked⟩
  have passes := forM_ok_iff.mp passes crl member
  simp only [X509.checkRevocation, bind_ok_iff, require_ok_iff] at passes
  rcases passes with ⟨_, found, passes⟩
  rw [found, Outcome.ok.injEq] at same
  exact passes ⟨same, revoked⟩

theorem validate_eq_of_cert_eq {other : Identity x509} (same : id.cert = other.cert) :
    msp.validate bccsp id = msp.validate bccsp other := by
  simp only [validate, validateIdentity, getCertificationChain, validateIdentityOUs,
    getOrganizationalUnits, getCertificationChainIdentifier, same]

end BccspMsp

end Fabric.MSP.Validation

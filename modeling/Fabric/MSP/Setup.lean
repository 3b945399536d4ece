import Fabric.MSP.Validation

/-!
# Setup of a membership service provider

The phases in which a provider is set up, the deserialization of identities and
the evaluation of principals.

An identity satisfies the role of an administrator if its certificate is that of
one, without further validation.  The last phase of the setup validates every
administrator against everything that was set up before, so an identity that
satisfies any principal is valid.
-/

namespace Fabric.MSP.Setup

open Library Outcome ByteString
open Protos (SerializedIdentity)
open Validation

/-! ## Configuration -/

/-- The content of a private key. -/
structure KeyInfo where
  keyMaterial : Slice
deriving DecidableEq

/-- The identity that a provider signs with. -/
structure SigningIdentityInfo where
  publicSigner : Slice
  privateSigner : Option KeyInfo
deriving DecidableEq

/-- An organizational unit and the certificate that vouches for it. -/
structure FabricOUIdentifier where
  certificate : Slice
  organizationalUnitIdentifier : GoString
deriving DecidableEq

/-- The definition of a provider. -/
structure FabricMSPConfig where
  name : GoString
  rootCerts : List Slice
  intermediateCerts : List Slice
  admins : List Slice
  revocationList : List Slice
  signingIdentity : Option SigningIdentityInfo
  organizationalUnitIdentifiers : List FabricOUIdentifier
  cryptoConfig : Option CryptoConfig
  tlsRootCerts : List Slice
  tlsIntermediateCerts : List Slice
deriving DecidableEq

/-! ## Principals -/

/-- The kinds of principals. -/
inductive Classification where
  | role
  | organizationUnit
  | identity
  | other (number : Int)
deriving DecidableEq

/-- A principal, which its classification decodes. -/
structure MSPPrincipal where
  principalClassification : Classification
  principal : Slice
deriving DecidableEq

/-- The roles in a provider. -/
inductive MSPRoleType where
  | member
  | admin
  | other (number : Int)
deriving DecidableEq

/-- A role in a provider. -/
structure MSPRole where
  mspIdentifier : GoString
  role : MSPRoleType
deriving DecidableEq

/-- An organizational unit of a provider. -/
structure OrganizationUnit where
  mspIdentifier : GoString
  organizationalUnitIdentifier : GoString
  certifiersIdentifier : Slice
deriving DecidableEq

/-- The codec of the messages of a provider. -/
structure MspCodec where
  unmarshalFabricMSPConfig : Bytes → Option FabricMSPConfig
  unmarshalSerializedIdentity : Bytes → Option SerializedIdentity
  unmarshalMSPRole : Bytes → Option MSPRole
  unmarshalOrganizationUnit : Bytes → Option OrganizationUnit

section

variable {x509 : X509} (codec : MspCodec) (bccsp : Bccsp) (msp : BccspMsp x509)

/-! ## Identities -/

/-- Bring the signature of a certificate into low-S. -/
def sanitizeCert (cert : x509.ParsedCertificate) : Outcome MSPError x509.ParsedCertificate :=
  if X509.isECDSASignedCert cert then do
    let opts ← msp.getValidityOptsForCert
    let chain ← msp.getUniqueValidationChain cert opts
    let parentCert ←
      if cert.val.isCA = true ∧ chain.length = 1 then .ok cert.val else deref chain[1]?
    x509.sanitizeECDSASignedCert cert parentCert
  else
    .ok cert

/-- An identity with its sanitized certificate. -/
def newIdentity (id : Bytes) (cert : x509.ParsedCertificate) :
    Outcome MSPError (Identity x509) := do
  let cert ← sanitizeCert msp cert
  .ok { id, cert := cert.val, parsed := cert.property }

/-- The digest of a certificate under the configured hash function. -/
def identifierOf (cert : Certificate) : Outcome MSPError Bytes :=
  ofOption .hash (bccsp.hash msp.cryptoConfig.identityIdentifierHashFunction cert.raw)

/-- An identity of the configuration; whether its key is imported is ignored. -/
def getIdentityFromConf (idBytes : Slice) : Outcome MSPError (Identity x509) := do
  let cert ← x509.getCertFromPem idBytes
  let digest ← identifierOf bccsp msp cert
  newIdentity msp digest cert

/-- The signing identity, which panics where the key was not imported. -/
def getSigningIdentityFromConf (sidInfo : SigningIdentityInfo) :
    Outcome MSPError (Identity x509) := do
  let idPub ← getIdentityFromConf bccsp msp sidInfo.publicSigner
  let certificate ← x509.getCertFromPem sidInfo.publicSigner
  if bccsp.importsPublicKey certificate = false then
    .panic
  else if bccsp.hasPrivateKey certificate = false then
    let keyMaterial ← ofOption .signingIdentity (sidInfo.privateSigner.bind KeyInfo.keyMaterial)
    let pemKey ← deref (x509.decodePem keyMaterial)
    require (bccsp.importsPrivateKey pemKey = true) .signingIdentity
  else
    .ok ⟨⟩
  require (bccsp.newSigner certificate = true) .signingIdentity
  let digest ← identifierOf bccsp msp idPub.cert
  newIdentity msp digest ⟨idPub.cert, idPub.parsed⟩

/-- Read an identity from its certificate. -/
def deserializeIdentityInternal (serializedIdentity : Slice) :
    Outcome MSPError (Identity x509) := do
  let der ← ofOption .pem (x509.decodePem serializedIdentity.bytes)
  let cert ← ofOption .parse (x509.parse der)
  let digest ← identifierOf bccsp msp cert
  require (bccsp.importsPublicKey cert = true) .publicKey
  newIdentity msp digest cert

/-- Read a serialized identity that names the provider. -/
def deserializeIdentity (serializedID : Bytes) : Outcome MSPError (Identity x509) := do
  let sId ← ofOption .serializedIdentity (codec.unmarshalSerializedIdentity serializedID)
  require (sId.mspid = msp.name) .mspID
  deserializeIdentityInternal bccsp msp sId.idBytes

/-! ## The phases of the setup -/

section

variable (conf : FabricMSPConfig)

/-- The configured hash functions, or SHA2 and SHA256. -/
def setupCrypto : BccspMsp x509 :=
  let sha2 := .ascii "SHA2"
  let sha256 := .ascii "SHA256"
  let cryptoConfig := conf.cryptoConfig.getD
      { signatureHashFamily := sha2, identityIdentifierHashFunction := sha256 }
  { msp with
    cryptoConfig :=
      { signatureHashFamily :=
          if cryptoConfig.signatureHashFamily = .empty then sha2
          else cryptoConfig.signatureHashFamily
        identityIdentifierHashFunction :=
          if cryptoConfig.identityIdentifierHashFunction = .empty then sha256
          else cryptoConfig.identityIdentifierHashFunction } }

/-- Load the administrators. -/
def setupAdmins : Outcome MSPError (BccspMsp x509) := do
  let admins ← conf.admins.mapM (getIdentityFromConf bccsp msp)
  .ok { msp with admins }

/--
Load the authorities.  They are sanitized with the pools of what was configured,
and the pools are then made anew from the sanitized ones.  The administrators are
loaded here as well.
-/
def setupCAs : Outcome MSPError (BccspMsp x509) := do
  require (conf.rootCerts ≠ []) .noCACertificates
  let roots ← conf.rootCerts.mapM x509.getCertFromPem
  let intermediates ← conf.intermediateCerts.mapM x509.getCertFromPem
  let msp :=
    { msp with
      opts := some
          { roots := roots.map Subtype.val, intermediates := intermediates.map Subtype.val } }
  let rootCerts ← conf.rootCerts.mapM (getIdentityFromConf bccsp msp)
  let intermediateCerts ← conf.intermediateCerts.mapM (getIdentityFromConf bccsp msp)
  setupAdmins bccsp
    { msp with
      rootCerts, intermediateCerts
      opts := some
          { roots := rootCerts.map Identity.cert
            intermediates := intermediateCerts.map Identity.cert } }
    conf

/-- Load the lists of revoked certificates. -/
def setupCRLs : Outcome MSPError (BccspMsp x509) := do
  let crl ← conf.revocationList.mapM fun crlbytes =>
      ofOption MSPError.revocationList (x509.parseCRL crlbytes.bytes)
  .ok { msp with crl }

end

/-- Check an authority against its chain. -/
def validateCAIdentity (id : Identity x509) : Outcome MSPError PUnit := do
  require (id.cert.isCA = true) .notCA
  let opts ← msp.getValidityOptsForCert
  let validationChain ← msp.getUniqueValidationChain id.cert opts
  if validationChain.length = 1 then .ok ⟨⟩
  else msp.validateCertAgainstChain id.cert validationChain

/-- Check the authorities and mark those that certify other authorities. -/
def finalizeSetupCAs : Outcome MSPError (BccspMsp x509) := do
  (msp.rootCerts ++ msp.intermediateCerts).forM fun id => do
    require (x509.isCACert id.cert = true) MSPError.caCertificate
    validateCAIdentity msp id
  let chains ← msp.intermediateCerts.mapM fun id => do
      let opts ← msp.getValidityOptsForCert
      msp.getUniqueValidationChain id.cert opts
  .ok
    { msp with
      certificationTreeInternalNodes :=
        chains.flatMap fun chain => (chain.drop 1).map Certificate.raw }

/-- Load the signing identity, if there is one. -/
def setupSigningIdentity (conf : FabricMSPConfig) : Outcome MSPError (BccspMsp x509) :=
  match conf.signingIdentity with
  | none => .ok msp
  | some sidInfo => do
      let signer ← getSigningIdentityFromConf bccsp msp sidInfo
      .ok { msp with signer := some signer }

/-- Accept a unit from the authority whose certificate is configured for it. -/
def setupOU (msp : BccspMsp x509) (ou : FabricOUIdentifier) : Outcome MSPError (BccspMsp x509) := do
  let cert ← x509.getCertFromPem ou.certificate
  let cert ← sanitizeCert msp cert
  let isRoot := msp.rootCerts.any fun id => id.cert.raw = cert.val.raw
  let isIntermediate := msp.intermediateCerts.any fun id => id.cert.raw = cert.val.raw
  require (isRoot = true ∨ isIntermediate = true) .organizationalUnitCertificate
  let chain ←
    if isRoot then .ok [cert.val] else msp.getValidationChain cert true
  let certifiersIdentifier ← msp.getCertificationChainIdentifierFromChain bccsp chain
  let known := (msp.ouIdentifiers[ou.organizationalUnitIdentifier]?).getD []
  if certifiersIdentifier ∈ known then
    .ok msp
  else
    .ok
      { msp with
        ouIdentifiers := msp.ouIdentifiers.insert ou.organizationalUnitIdentifier
            (known ++ [certifiersIdentifier]) }

/-- Load the accepted units. -/
def setupOUs (conf : FabricMSPConfig) : Outcome MSPError (BccspMsp x509) :=
  conf.organizationalUnitIdentifiers.foldlM (setupOU bccsp) { msp with ouIdentifiers := ∅ }

/-- Check an authority for TLS against its chain. -/
def validateTLSCAIdentity (cert : Certificate) (opts : VerifyOptions) : Outcome MSPError PUnit := do
  require (cert.isCA = true) .notCA
  let validationChain ← msp.getUniqueValidationChain cert opts
  if validationChain.length = 1 then .ok ⟨⟩ else msp.validateCertAgainstChain cert validationChain

/-- Load the authorities for TLS. -/
def setupTLSCAs (conf : FabricMSPConfig) : Outcome MSPError (BccspMsp x509) := do
  let rootCerts ← conf.tlsRootCerts.mapM x509.getCertFromPem
  let intermediateCerts ← conf.tlsIntermediateCerts.mapM x509.getCertFromPem
  let opts : VerifyOptions :=
    { roots := rootCerts.map Subtype.val, intermediates := intermediateCerts.map Subtype.val }
  (rootCerts ++ intermediateCerts).forM fun cert => do
    require (x509.isCACert cert = true) MSPError.caCertificate
    validateTLSCAIdentity msp cert opts
  .ok
    { msp with
      tlsRootCerts := conf.tlsRootCerts
      tlsIntermediateCerts := conf.tlsIntermediateCerts }

/-- A provider that has not been set up. -/
def newBccspMsp (x509 : X509) : BccspMsp x509 :=
  { name := .empty
    cryptoConfig := ⟨.empty, .empty⟩
    opts := none
    rootCerts := []
    intermediateCerts := []
    admins := []
    crl := []
    certificationTreeInternalNodes := []
    ouIdentifiers := ∅
    tlsRootCerts := []
    tlsIntermediateCerts := []
    signer := none }

/-- Set up a provider; what it was before does not matter. -/
def setup (conf : Option Slice) : Outcome MSPError (BccspMsp x509) := do
  let config ← ofOption .nilConfig conf
  let conf ← ofOption .config (codec.unmarshalFabricMSPConfig config.bytes)
  let msp := setupCrypto { msp with name := conf.name } conf
  let msp ← setupCAs bccsp msp conf
  let msp ← setupAdmins bccsp msp conf
  let msp ← setupCRLs msp conf
  let msp ← finalizeSetupCAs msp
  let msp ← setupSigningIdentity bccsp msp conf
  let msp ← setupOUs bccsp msp conf
  let msp ← setupTLSCAs msp conf
  msp.admins.forM fun admin => (msp.validate bccsp admin).mapError fun _ => MSPError.admin
  .ok msp

/-! ## Evaluating principals -/

/-- The identity has a role in the provider. -/
def satisfiesRole (id : Identity x509) (mspRole : MSPRole) : Outcome MSPError PUnit := do
  require (mspRole.mspIdentifier = msp.name) .differentMSP
  match mspRole.role with
  | .member => msp.validate bccsp id
  | .admin => require (∃ admincert ∈ msp.admins, id.cert.raw = admincert.cert.raw) .notAdmin
  | .other _ => .error .invalidRole

/-- The identity belongs to a unit of the provider. -/
def satisfiesOrganizationUnit (id : Identity x509) (unit : OrganizationUnit) :
    Outcome MSPError PUnit := do
  require (unit.mspIdentifier = msp.name) .differentMSP
  msp.validate bccsp id
  let units ← msp.getOrganizationalUnits bccsp id
  require (∃ ou ∈ units, ou.organizationalUnitIdentifier = unit.organizationalUnitIdentifier ∧
        ou.certifiersIdentifier = unit.certifiersIdentifier.bytes)
    .identitiesDiffer

/-- The identity has the certificate of the principal. -/
def satisfiesIdentity (id : Identity x509) (principal : Bytes) : Outcome MSPError PUnit := do
  let principalId ← deserializeIdentity codec bccsp msp principal
  if id.cert.raw = principalId.cert.raw then msp.validate bccsp principalId
  else .error .identitiesDiffer

/-- The identity satisfies a principal. -/
def satisfiesPrincipal (id : Identity x509) (principal : MSPPrincipal) : Outcome MSPError PUnit :=
  match principal.principalClassification with
  | .role => do
      let mspRole ← ofOption .principal (codec.unmarshalMSPRole principal.principal.bytes)
      satisfiesRole bccsp msp id mspRole
  | .identity => satisfiesIdentity codec bccsp msp id principal.principal.bytes
  | .organizationUnit => do
      let unit ← ofOption .principal (codec.unmarshalOrganizationUnit principal.principal.bytes)
      satisfiesOrganizationUnit bccsp msp id unit
  | .other _ => .error .invalidPrincipal

/-! ## What the setup ensures -/

variable {codec bccsp msp} {next : BccspMsp x509} {conf : FabricMSPConfig}

theorem ownPools_of_setupCAs (sets : setupCAs bccsp msp conf = .ok next) :
    next.opts = some next.pools := by
  simp only [setupCAs, setupAdmins, bind_ok_iff] at sets
  rcases sets with ⟨_, _, _, _, _, _, _, _, _, _, _, _, same⟩
  cases same
  rfl

section

variable (ownPools : msp.opts = some msp.pools)
include ownPools

theorem ownPools_of_setupAdmins (sets : setupAdmins bccsp msp conf = .ok next) :
    next.opts = some next.pools := by
  simp only [setupAdmins, bind_ok_iff] at sets
  rcases sets with ⟨_, _, same⟩
  cases same
  exact ownPools

theorem ownPools_of_setupCRLs (sets : setupCRLs msp conf = .ok next) :
    next.opts = some next.pools := by
  simp only [setupCRLs, bind_ok_iff] at sets
  rcases sets with ⟨_, _, same⟩
  cases same
  exact ownPools

theorem ownPools_of_finalizeSetupCAs (sets : finalizeSetupCAs msp = .ok next) :
    next.opts = some next.pools := by
  simp only [finalizeSetupCAs, bind_ok_iff] at sets
  rcases sets with ⟨_, _, _, _, same⟩
  cases same
  exact ownPools

theorem ownPools_of_setupSigningIdentity (sets : setupSigningIdentity bccsp msp conf = .ok next) :
    next.opts = some next.pools := by
  unfold setupSigningIdentity at sets
  cases given : conf.signingIdentity with
  | none =>
    rw [given] at sets
    cases sets
    exact ownPools
  | some _ =>
    simp only [given, bind_ok_iff] at sets
    rcases sets with ⟨_, _, same⟩
    cases same
    exact ownPools

theorem ownPools_of_setupOU {ou : FabricOUIdentifier} (sets : setupOU bccsp msp ou = .ok next) :
    next.opts = some next.pools := by
  simp only [setupOU, bind_ok_iff] at sets
  rcases sets with ⟨_, _, _, _, _, _, sets⟩
  split at sets
  all_goals
    simp only [bind_ok_iff] at sets
    rcases sets with ⟨_, _, _, _, sets⟩
    split at sets
    · cases sets
      exact ownPools
    · cases sets
      exact ownPools

theorem ownPools_of_setupOUs (sets : setupOUs bccsp msp conf = .ok next) :
    next.opts = some next.pools := by
  refine foldlM_invariant (fun _ _ _ ownPools sets => ownPools_of_setupOU ownPools sets) ?_ sets
  exact ownPools

theorem ownPools_of_setupTLSCAs (sets : setupTLSCAs msp conf = .ok next) :
    next.opts = some next.pools := by
  simp only [setupTLSCAs, bind_ok_iff] at sets
  rcases sets with ⟨_, _, _, _, _, _, same⟩
  cases same
  exact ownPools

end

/--
A provider that was set up verifies against its own authorities, and all of its
administrators are valid.
-/
theorem ownPools_and_validate_of_setup {config : Option Slice}
    (sets : setup codec bccsp msp config = .ok next) :
    next.opts = some next.pools ∧ ∀ admin ∈ next.admins, next.validate bccsp admin = .ok ⟨⟩ := by
  simp only [setup, bind_ok_iff] at sets
  rcases sets with ⟨_, _, _, _, _, setsCAs, _, setsAdmins, _, setsCRLs,
      _, finalizes, _, setsSigner, _, setsOUs, _,
      setsTLS, _, validates, same⟩
  cases same
  constructor
  · apply ownPools_of_setupTLSCAs _ setsTLS
    apply ownPools_of_setupOUs _ setsOUs
    apply ownPools_of_setupSigningIdentity _ setsSigner
    apply ownPools_of_finalizeSetupCAs _ finalizes
    apply ownPools_of_setupCRLs _ setsCRLs
    apply ownPools_of_setupAdmins _ setsAdmins
    exact ownPools_of_setupCAs setsCAs
  · intro admin isAdmin
    rw [forM_ok_iff] at validates
    exact (mapError_ok_iff _ _ _).mp (validates admin isAdmin)

/-! ## What satisfies a principal -/

variable {id : Identity x509} {principal : MSPPrincipal}

theorem validate_of_satisfiesRole {mspRole : MSPRole}
    (adminsValid : ∀ admin ∈ msp.admins, msp.validate bccsp admin = .ok ⟨⟩)
    (satisfies : satisfiesRole bccsp msp id mspRole = .ok ⟨⟩) :
    msp.validate bccsp id = .ok ⟨⟩ := by
  simp only [satisfiesRole, bind_ok_iff] at satisfies
  rcases satisfies with ⟨_, _, satisfies⟩
  cases role : mspRole.role with
  | member =>
    rw [role] at satisfies
    exact satisfies
  | admin =>
    rw [role, require_ok_iff] at satisfies
    rcases satisfies with ⟨admincert, isAdmin, sameRaw⟩
    have sameCert := id.parsed.eq_of_raw_eq admincert.parsed sameRaw
    rw [BccspMsp.validate_eq_of_cert_eq sameCert]
    exact adminsValid admincert isAdmin
  | other _ =>
    rw [role] at satisfies
    cases satisfies

theorem validate_of_satisfiesPrincipal
    (adminsValid : ∀ admin ∈ msp.admins, msp.validate bccsp admin = .ok ⟨⟩)
    (satisfies : satisfiesPrincipal codec bccsp msp id principal = .ok ⟨⟩) :
    msp.validate bccsp id = .ok ⟨⟩ := by
  unfold satisfiesPrincipal at satisfies
  cases classified : principal.principalClassification with
  | role =>
    rw [classified, bind_ok_iff] at satisfies
    rcases satisfies with ⟨_, _, satisfies⟩
    exact validate_of_satisfiesRole adminsValid satisfies
  | organizationUnit =>
    rw [classified, bind_ok_iff] at satisfies
    rcases satisfies with ⟨_, _, satisfies⟩
    simp only [satisfiesOrganizationUnit, bind_ok_iff] at satisfies
    rcases satisfies with ⟨_, _, _, validates, _⟩
    exact validates
  | identity =>
    simp only [classified, satisfiesIdentity, bind_ok_iff] at satisfies
    rcases satisfies with ⟨principalId, _, satisfies⟩
    split at satisfies
    next sameRaw =>
      have sameCert := id.parsed.eq_of_raw_eq principalId.parsed sameRaw
      rw [BccspMsp.validate_eq_of_cert_eq sameCert]
      exact satisfies
    next => cases satisfies
  | other _ =>
    rw [classified] at satisfies
    cases satisfies

/--
Whoever satisfies a principal of a provider that was set up is valid: the
certificate chains to the roots of the provider below a leaf authority, is not
revoked and has an accepted unit.  This holds of every identity with a parsed
certificate, and so of those the provider deserializes.
-/
theorem identity_satisfying_principal_valid {initial : BccspMsp x509} {config : Option Slice}
    (sets : setup codec bccsp initial config = .ok msp)
    (satisfies : satisfiesPrincipal codec bccsp msp id principal = .ok ⟨⟩) :
    msp.validate bccsp id = .ok ⟨⟩ ∧ (∃ signer chain, msp.IssuedBy id.cert signer chain) ∧
      msp.HasAcceptedUnit bccsp id := by
  rcases ownPools_and_validate_of_setup sets with ⟨ownPools, adminsValid⟩
  have valid := validate_of_satisfiesPrincipal adminsValid satisfies
  refine ⟨valid, BccspMsp.exists_issuedBy_of_validateIdentity ownPools valid, ?_⟩
  simp only [BccspMsp.validate, BccspMsp.validateIdentity, bind_ok_iff] at valid
  rcases valid with ⟨_, _, _, _, accepted⟩
  exact BccspMsp.hasAcceptedUnit_of_validateIdentityOUs accepted

end

/-! ## The sample provider of the repository -/

namespace Sample

/-!
An authority, an administrator that it has certified, and a unit.  Short bytes
stand for the encoded messages and certificates.
-/

/-- The certificate of the authority. -/
def caDer : Bytes := [1]

/-- The certificate of the administrator. -/
def adminDer : Bytes := [1, 2]

/-- A certificate in its textual encoding. -/
def pemOf (der : Bytes) : Bytes := 45 :: der

/-- The unit. -/
def cop : GoString := .ascii "COP"

/-- The provider. -/
def name : GoString := .ascii "DEFAULT"

/-- A certificate with the given extensions, which are numbered below `2.5.29`. -/
def certificate (der : Bytes) (isCA : Bool) (extensions : List (Nat × Bytes)) : Certificate :=
  { raw := der
    serialNumber := der.length
    isCA
    organizationalUnit := [cop]
    extensions := extensions.map fun (id, value) => { id := [2, 5, 29, id], value }
    signatureAlgorithm := .ecdsaWithSHA256
    signature := [48, 6, 2, 1, 1, 2, 1, 1] }

/-- The authority, with the uses of its key and the identifier of the key. -/
def ca : Certificate := certificate caDer true [(15, [3, 2, 1, 6]), (14, [4, 2, 138, 115])]

/-- The administrator. -/
def admin : Certificate := certificate adminDer false [(15, [3, 2, 7, 128])]

/-- Certificates, as far as the two are concerned; both are in low-S. -/
def x509 : X509 where
  decodePem pem := [caDer, adminDer].find? fun der => pemOf der = pem
  parseCertificate der := [ca, admin].find? fun cert => cert.raw = der
  raw_of_parseCertificate found := by
    simpa using List.find?_some found
  parseCRL _ := none
  verify opts cert := if opts.roots.all (fun root => root.raw ≠ caDer) then none
    else if cert.raw = caDer then some [[ca]]
    else if cert.raw = adminDer then some [[admin, ca]]
    else none
  checkCRLSignature _ _ := false
  unmarshalOctetString
    | 4 :: size :: rest =>
      if size.toNat ≤ rest.length then some (rest.take size.toNat) else none
    | _ => none
  unmarshalAuthorityKeyIdentifier _ := none
  signatureToLowS _ signature := .ok signature
  replaceSignature _ _ := none

/-- Keys of the two certificates and a hash function. -/
def bccsp : Bccsp where
  hash function message :=
    if function = .ascii "SHA256" then some (UInt8.ofNat message.length :: List.replicate 31 0)
    else none
  importsPublicKey cert := decide (cert = ca ∨ cert = admin)
  hasPrivateKey _ := false
  importsPrivateKey _ := false
  newSigner _ := false

/-- The authority, the administrator and the unit of the sample. -/
def config : FabricMSPConfig :=
  { name
    rootCerts := [some (pemOf caDer)]
    intermediateCerts := []
    admins := [some (pemOf adminDer)]
    revocationList := []
    signingIdentity := none
    organizationalUnitIdentifiers :=
      [{ certificate := some (pemOf caDer), organizationalUnitIdentifier := cop }]
    cryptoConfig := none
    tlsRootCerts := []
    tlsIntermediateCerts := [] }

/-- The encoded configuration. -/
def configBytes : Bytes := [1]

/-- The serialized identity of the administrator. -/
def identityBytes : Bytes := [2]

/-- The encoded role of an administrator. -/
def roleBytes : Bytes := [3]

/-- The decoders of the three messages. -/
def codec : MspCodec where
  unmarshalFabricMSPConfig message := if message = configBytes then some config else none
  unmarshalSerializedIdentity message :=
    if message = identityBytes then some ⟨name, some (pemOf adminDer)⟩ else none
  unmarshalMSPRole message := if message = roleBytes then some ⟨name, .admin⟩ else none
  unmarshalOrganizationUnit _ := none

/-- The principal of the administrators. -/
def adminRole : MSPPrincipal := ⟨.role, some roleBytes⟩

end Sample

/-- The deserialized administrator of the sample satisfies the role and is valid. -/
theorem sample_admin_satisfying_role_valid :
    ∃ msp id, setup Sample.codec Sample.bccsp (newBccspMsp Sample.x509)
          (some (some Sample.configBytes)) = .ok msp ∧
        deserializeIdentity Sample.codec Sample.bccsp msp Sample.identityBytes = .ok id ∧
        satisfiesPrincipal Sample.codec Sample.bccsp msp id Sample.adminRole = .ok ⟨⟩ ∧
        msp.validate Sample.bccsp id = .ok ⟨⟩ ∧
        (∃ signer chain, msp.IssuedBy id.cert signer chain) ∧
        msp.HasAcceptedUnit Sample.bccsp id := by
  have runs : ∃ msp, setup Sample.codec Sample.bccsp (newBccspMsp Sample.x509)
        (some (some Sample.configBytes)) = .ok msp ∧ ∃ id,
          deserializeIdentity Sample.codec Sample.bccsp msp Sample.identityBytes = .ok id ∧
            satisfiesPrincipal Sample.codec Sample.bccsp msp id Sample.adminRole = .ok ⟨⟩ := by
    decide +kernel
  rcases runs with ⟨msp, sets, id, deserialized, satisfies⟩
  exact ⟨msp, id, sets, deserialized, satisfies, identity_satisfying_principal_valid sets satisfies⟩

end Fabric.MSP.Setup

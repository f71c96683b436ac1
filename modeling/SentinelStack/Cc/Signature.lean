import SentinelStack.Cc.Elf

/- Signing and verification: `sign_tool` on an image, and `verify_signature` of
   the loader on a file. Both hash the code and the policy sections in one order;
   the signature scheme and the hash are parameters.

   `sign_tool` writes at a file offset, so signing is modelled on the bytes of the
   file; libelf's reading of the header tables (`elfBegin`) is a parameter too.

   Main results:
   - `signed_accepted_iff` — the two tools use different sections, so signing a
     file does not change what the loader says about it, provided the bytes signing
     writes to are no bytes of the sections the loader looks at: it accepts the
     signed file if and only if the file carried, before it was signed, a valid
     signature in those sections.
   - `same_signature_iff` — the sections are hashed end to end without their
     lengths, so a signature fixes their contents exactly up to where one ends and
     the next begins. -/
namespace SentinelStack.Cc
open SentinelStack.Lib

/-- Ed25519 as OpenSSL documents it: 64-byte signatures that verify under the matching key. -/
structure SignatureScheme where
  PrivKey : Type
  PubKey : Type
  publicKey : PrivKey → PubKey
  sign : PrivKey → List U8 → List U8
  verify : PubKey → List U8 → List U8 → Bool
  length_sign : ∀ key msg, (sign key msg).length = 64
  verify_sign : ∀ key msg, verify (publicKey key) (sign key msg) msg = true

/-- What is hashed, in this order: the code, the policy and the optional sections that have bytes. -/
structure DigestParts where
  text : List U8
  sentinel : List U8
  sentinelCfi : List U8
  sentinelImports : List U8
  deriving DecidableEq, Repr

def DigestParts.message (d : DigestParts) : List U8 := d.text ++ d.sentinel ++ d.sentinelCfi ++ d.sentinelImports

/-- What is fed to the hash, with the policy taken from the section named: of each section the
    last of its name. `none` when code or policy is missing, or has no buffer to read. -/
def fedToDigest (img : ElfImage) (policySection : CStr) : Option DigestParts :=
  match (img.lastData (ascii ".text")).bind (·.digested), (img.lastData policySection).bind (·.digested) with
  | some text, some policy =>
    some ⟨text, policy, ElfData.optional (img.lastData (ascii ".sentinel_cfi")),
      ElfData.optional (img.lastData (ascii ".sentinel_imports"))⟩
  | _, _ => none

/-- The key `verify_signature` finds in the keyring or the TPM, and the revocations it knows. -/
structure KeyStore (PubKey : Type) where
  pubkey : Option PubKey
  isKeyRevoked : PubKey → Bool

section
variable (ed : SignatureScheme) (sha256 : List U8 → List U8) (elfBegin : List U8 → Option ElfLayout)

def checkSignature (pub : ed.PubKey) (img : ElfImage) (sig : ElfData) : Bool :=
  match fedToDigest img (ascii ".sentinel"), sig with
  | some d, .bytes s => ed.verify pub s (sha256 d.message)
  | _, _ => false

/-- `verify_signature`: whether it returns the open file. -/
def verifySignature (keys : KeyStore ed.PubKey) : FileContent → Bool
  | .elf img =>
    if ¬ img.hasShstrtab then false
    else
      match img.lastData (ascii ".text"), img.lastData (ascii ".sentinel"), img.lastData (ascii ".signature") with
      | some _, some _, some sig =>
        match keys.pubkey with
        | none => false
        | some pub => if keys.isKeyRevoked pub then false else checkSignature ed sha256 pub img sig
      | _, _, _ => false
  | _ => false

def sigSize : Nat := 64

/-- `sign_tool <binary> <private.pem>`: the signed file, `none` when it fails. The signature goes to
    the offset in the header of the last `.tca_signatures`, whose type is not looked at. -/
def signTool (key : ed.PrivKey) (file : List U8) : Option (List U8) :=
  match elfBegin file with
  | none => none
  | some layout =>
    if ¬ layout.hasShstrtab then none
    else
      match (layout.image file).lastData (ascii ".text"), (layout.image file).lastData (ascii ".tca_got"),
          (layout.named (ascii ".tca_signatures")).getLast? with
      | some _, some _, some sigSection =>
        if sigSection.size < sigSize then none
        else
          match fedToDigest (layout.image file) (ascii ".tca_got") with
          | none => none
          | some d =>
            -- an offset that is negative as an `off_t` is refused by `lseek`
            if sigSection.offset < 2 ^ 63 then
              some (writeAt sigSection.offset (ed.sign key (sha256 d.message)) file)
            else none
      | _, _, _ => none

/-- The sections `verify_signature` looks at. -/
def IsVerified (name : CStr) : Prop :=
  name = ascii ".text" ∨ name = ascii ".sentinel" ∨ name = ascii ".signature" ∨
    name = ascii ".sentinel_cfi" ∨ name = ascii ".sentinel_imports"

/-- The place of the signature is in the file, and no byte of it belongs to a section the loader
    looks at. -/
def SignatureApart (layout : ElfLayout) (file : List U8) : Prop :=
  ∀ sigSection, (layout.named (ascii ".tca_signatures")).getLast? = some sigSection →
    sigSection.offset + sigSize ≤ file.length ∧
      ∀ name, IsVerified name → ∀ h ∈ layout.named name,
        h.noBits ∨ h.offset + h.size ≤ sigSection.offset ∨ sigSection.offset + sigSize ≤ h.offset

/-- The image holds code, policy and, in its last `.signature`, bytes that verify for their hash. -/
def CarriesSignature (pub : ed.PubKey) (img : ElfImage) : Prop :=
  ∃ d sig, fedToDigest img (ascii ".sentinel") = some d ∧ img.lastData (ascii ".signature") = some (.bytes sig) ∧
    ed.verify pub sig (sha256 d.message) = true

end

/-! The round trip. -/

section
variable {ed : SignatureScheme} {sha256 : List U8 → List U8} {elfBegin : List U8 → Option ElfLayout}

theorem signTool_some {key : ed.PrivKey} {file signed : List U8} {layout : ElfLayout}
    (hlayout : elfBegin file = some layout) (h : signTool ed sha256 elfBegin key file = some signed) :
    layout.hasShstrtab ∧ ∃ sigSection signature, (layout.named (ascii ".tca_signatures")).getLast? = some sigSection ∧
      signature.length = sigSize ∧ signed = writeAt sigSection.offset signature file := by
  unfold signTool at h
  rw [hlayout] at h
  dsimp only at h
  split at h
  · cases h
  next hnames =>
    refine ⟨by simpa using hnames, ?_⟩
    split at h
    next sigSection _ _ hsection =>
      split at h
      · cases h
      next =>
        split at h
        · cases h
        next d _ =>
          split at h
          · exact ⟨sigSection, _, hsection, ed.length_sign key (sha256 d.message), (Option.some.inj h).symm⟩
          · cases h
    · cases h

/-- A successful signing changes no section that lies apart from the signature. -/
theorem signTool_lastData {key : ed.PrivKey} {file signed : List U8} {layout : ElfLayout}
    (hlayout : elfBegin file = some layout) (h : signTool ed sha256 elfBegin key file = some signed)
    (hapart : SignatureApart layout file) {name : CStr} (hname : IsVerified name) :
    (layout.image signed).lastData name = (layout.image file).lastData name := by
  obtain ⟨-, sigSection, signature, hsection, hlen, rfl⟩ := signTool_some hlayout h
  obtain ⟨hin, hapart⟩ := hapart sigSection hsection
  rw [ElfLayout.lastData_image, ElfLayout.lastData_image]
  cases hlast : (layout.named name).getLast? with
  | none => rfl
  | some header =>
    have hmem : header ∈ layout.named name := List.mem_of_getLast? hlast
    exact SectionHeader.data_writeAt (by omega) (by rw [hlen]; exact hapart name hname header hmem)

theorem checkSignature_iff {pub : ed.PubKey} {img : ElfImage} {sig : ElfData} :
    checkSignature ed sha256 pub img sig = true ↔
      ∃ d s, fedToDigest img (ascii ".sentinel") = some d ∧ sig = .bytes s ∧ ed.verify pub s (sha256 d.message) = true := by
  unfold checkSignature
  cases fedToDigest img (ascii ".sentinel") with
  | none => simp
  | some d => cases sig <;> simp

theorem fedToDigest_present {img : ElfImage} {policySection : CStr} {d : DigestParts}
    (h : fedToDigest img policySection = some d) :
    (img.lastData (ascii ".text")).isSome ∧ (img.lastData policySection).isSome := by
  unfold fedToDigest at h
  cases htext : img.lastData (ascii ".text") with
  | none => simp [htext] at h
  | some text =>
    cases hpolicy : img.lastData policySection with
    | none => simp [hpolicy] at h
    | some policy => exact ⟨rfl, rfl⟩

/-- Acceptance, without the order of the checks. -/
theorem verifySignature_iff {keys : KeyStore ed.PubKey} {img : ElfImage} :
    verifySignature ed sha256 keys (.elf img) = true ↔
      img.hasShstrtab ∧ ∃ pub, keys.pubkey = some pub ∧ keys.isKeyRevoked pub = false ∧
        CarriesSignature ed sha256 pub img := by
  rw [verifySignature]
  constructor
  · intro h
    split at h
    · cases h
    next hnames =>
      split at h
      next _ _ sig _ _ hsig =>
        split at h
        · cases h
        next pub hpub =>
          split at h
          · cases h
          next hrevoked =>
            obtain ⟨d, s, hd, rfl, hverify⟩ := checkSignature_iff.mp h
            exact ⟨by simpa using hnames, pub, hpub, by simpa using hrevoked, d, s, hd, hsig, hverify⟩
      · cases h
  · intro h
    obtain ⟨hnames, pub, hpub, hrevoked, d, s, hd, hsig, hverify⟩ := h
    obtain ⟨htext, hsentinel⟩ := fedToDigest_present hd
    obtain ⟨text, htext⟩ := Option.isSome_iff_exists.mp htext
    obtain ⟨sentinel, hsentinel⟩ := Option.isSome_iff_exists.mp hsentinel
    have hcheck := checkSignature_iff.mpr ⟨d, s, hd, rfl, hverify⟩
    simp [hnames, htext, hsentinel, hsig, hpub, hrevoked, hcheck]

theorem carriesSignature_signed {key : ed.PrivKey} {file signed : List U8} {layout : ElfLayout}
    (hlayout : elfBegin file = some layout) (h : signTool ed sha256 elfBegin key file = some signed)
    (hapart : SignatureApart layout file) (pub : ed.PubKey) :
    CarriesSignature ed sha256 pub (layout.image signed) ↔ CarriesSignature ed sha256 pub (layout.image file) := by
  have hsame : ∀ name, IsVerified name → (layout.image signed).lastData name = (layout.image file).lastData name :=
    fun _ => signTool_lastData hlayout h hapart
  unfold CarriesSignature fedToDigest
  rw [hsame (ascii ".text") (by simp [IsVerified]), hsame (ascii ".sentinel") (by simp [IsVerified]),
    hsame (ascii ".signature") (by simp [IsVerified]), hsame (ascii ".sentinel_cfi") (by simp [IsVerified]),
    hsame (ascii ".sentinel_imports") (by simp [IsVerified])]

/-- **Signing does not reach the loader.** `sign_tool` hashes `.tca_got` and writes to
    `.tca_signatures`; the loader hashes `.sentinel` and reads `.signature`. The header tables are
    those of before the write. -/
theorem signed_accepted_iff (ed : SignatureScheme) (sha256 : List U8 → List U8)
    (elfBegin : List U8 → Option ElfLayout) (key : ed.PrivKey)
    (keys : KeyStore ed.PubKey) (hkey : keys.pubkey = some (ed.publicKey key))
    (hvalid : keys.isKeyRevoked (ed.publicKey key) = false) (file signed : List U8) (layout : ElfLayout)
    (hlayout : elfBegin file = some layout) (hsigned : signTool ed sha256 elfBegin key file = some signed)
    (htables : elfBegin signed = some layout) (hapart : SignatureApart layout file) :
    verifySignature ed sha256 keys (elfContent elfBegin signed) = true ↔
      CarriesSignature ed sha256 (ed.publicKey key) (layout.image file) := by
  have hnames : layout.hasShstrtab := (signTool_some hlayout hsigned).1
  rw [elfContent, htables, verifySignature_iff, ← carriesSignature_signed hlayout hsigned hapart]
  constructor
  · intro h
    obtain ⟨-, pub, hpub, -, hcarries⟩ := h
    rw [hkey, Option.some.injEq] at hpub
    exact hpub ▸ hcarries
  · intro h
    exact ⟨hnames, ed.publicKey key, hkey, hvalid, h⟩

/-! One signature on two images. -/

def DigestParts.lengths (d : DigestParts) : Nat × Nat × Nat := (d.text.length, d.sentinel.length, d.sentinelCfi.length)

theorem DigestParts.eq_of_message {d₁ d₂ : DigestParts} (hmessage : d₁.message = d₂.message)
    (hlengths : d₁.lengths = d₂.lengths) : d₁ = d₂ := by
  obtain ⟨text₁, sentinel₁, cfi₁, imports₁⟩ := d₁
  obtain ⟨text₂, sentinel₂, cfi₂, imports₂⟩ := d₂
  simp only [DigestParts.lengths, Prod.mk.injEq] at hlengths
  obtain ⟨htext, hsentinel, hcfi⟩ := hlengths
  simp only [DigestParts.message, List.append_assoc] at hmessage
  obtain ⟨rfl, hpolicy⟩ := List.append_inj hmessage htext
  obtain ⟨rfl, hoptional⟩ := List.append_inj hpolicy hsentinel
  obtain ⟨rfl, rfl⟩ := List.append_inj hoptional hcfi
  rfl

/-- An accepted image, by the key and the signature it was accepted with. -/
theorem accepted_signature {keys : KeyStore ed.PubKey} {pub : ed.PubKey} {img : ElfImage} {sig : List U8}
    (hkey : keys.pubkey = some pub) (hsig : img.lastData (ascii ".signature") = some (.bytes sig))
    (h : verifySignature ed sha256 keys (.elf img) = true) :
    ∃ d, fedToDigest img (ascii ".sentinel") = some d ∧ ed.verify pub sig (sha256 d.message) = true := by
  obtain ⟨-, pub', hpub, -, d, sig', hd, hsig', hverify⟩ := verifySignature_iff.mp h
  obtain rfl : pub = pub' := Option.some.inj (hkey ▸ hpub)
  rw [hsig, Option.some.injEq, ElfData.bytes.injEq] at hsig'
  exact ⟨d, hd, hsig' ▸ hverify⟩

/-- **What a signature binds.** With a hash that is injective on what is hashed and a signature
    that verifies for one hash only, two accepted images that carry the same signature have the
    same code and policy if and only if these are cut at the same places. -/
theorem same_signature_iff (ed : SignatureScheme) (sha256 : List U8 → List U8) (pub : ed.PubKey)
    (keys₁ keys₂ : KeyStore ed.PubKey) (hkey₁ : keys₁.pubkey = some pub) (hkey₂ : keys₂.pubkey = some pub)
    (img₁ img₂ : ElfImage) (sig : List U8) (hsig₁ : img₁.lastData (ascii ".signature") = some (.bytes sig))
    (hsig₂ : img₂.lastData (ascii ".signature") = some (.bytes sig))
    (h₁ : verifySignature ed sha256 keys₁ (.elf img₁) = true) (h₂ : verifySignature ed sha256 keys₂ (.elf img₂) = true)
    (hinj : ∀ d₁ d₂, fedToDigest img₁ (ascii ".sentinel") = some d₁ → fedToDigest img₂ (ascii ".sentinel") = some d₂ →
      sha256 d₁.message = sha256 d₂.message → d₁.message = d₂.message)
    (hunique : ∀ m₁ m₂, ed.verify pub sig (sha256 m₁) = true → ed.verify pub sig (sha256 m₂) = true →
      sha256 m₁ = sha256 m₂) :
    fedToDigest img₁ (ascii ".sentinel") = fedToDigest img₂ (ascii ".sentinel") ↔
      (fedToDigest img₁ (ascii ".sentinel")).map (·.lengths) = (fedToDigest img₂ (ascii ".sentinel")).map (·.lengths) := by
  obtain ⟨d₁, hd₁, hverify₁⟩ := accepted_signature hkey₁ hsig₁ h₁
  obtain ⟨d₂, hd₂, hverify₂⟩ := accepted_signature hkey₂ hsig₂ h₂
  have hmessage : d₁.message = d₂.message :=
    hinj d₁ d₂ hd₁ hd₂ (hunique d₁.message d₂.message hverify₁ hverify₂)
  rw [hd₁, hd₂]
  simp only [Option.map_some, Option.some.injEq]
  constructor
  · intro h
    rw [h]
  · exact DigestParts.eq_of_message hmessage

end

/-! Two images, under a scheme whose signature is the message itself. -/

/-- The bytes, cut or filled up to `n`. -/
def fitTo (n : Nat) (bytes : List U8) : List U8 := (bytes ++ List.replicate n 0).take n

def copyScheme : SignatureScheme where
  PrivKey := Unit
  PubKey := Unit
  publicKey := id
  sign := fun _ msg => fitTo 64 msg
  verify := fun _ sig msg => sig = fitTo 64 msg
  length_sign := by
    intro key msg
    simp [fitTo]
  verify_sign := by simp

def oneKey : KeyStore copyScheme.PubKey := ⟨some (), fun _ => false⟩

/-- All the sections either tool asks for, with the given bytes in `.signature`. -/
def instrumentedImage (signature : List U8) : ElfImage where
  phdrs := []
  hasShstrtab := true
  sections := [.ofBytes (ascii ".text") [0x90], .ofBytes (ascii ".sentinel") [1, 2],
    .ofBytes (ascii ".signature") signature, .ofBytes (ascii ".tca_got") [3],
    .ofBytes (ascii ".tca_signatures") (List.replicate 64 0)]

/-- The same sections at offsets of a file, the magic number of ELF in front of them. -/
def instrumentedLayout : ElfLayout where
  phdrs := []
  hasShstrtab := true
  headers := [⟨some (ascii ".text"), false, 4, 1⟩, ⟨some (ascii ".sentinel"), false, 5, 2⟩,
    ⟨some (ascii ".signature"), false, 7, 64⟩, ⟨some (ascii ".tca_got"), false, 71, 1⟩,
    ⟨some (ascii ".tca_signatures"), false, 72, 64⟩]

def instrumentedFile (signature : List U8) : List U8 :=
  [0x7f, 0x45, 0x4c, 0x46, 0x90, 1, 2] ++ fitTo 64 signature ++ 3 :: List.replicate 64 0

/-- A reader for which the magic number makes a file one with these sections. -/
def readInstrumented (file : List U8) : Option ElfLayout :=
  if file.take 4 = [0x7f, 0x45, 0x4c, 0x46] then some instrumentedLayout else none

theorem instrumented_apart (signature : List U8) : SignatureApart instrumentedLayout (instrumentedFile signature) := by
  intro sigSection hsection
  have hlast : (instrumentedLayout.named (ascii ".tca_signatures")).getLast? =
      some ⟨some (ascii ".tca_signatures"), false, 72, 64⟩ := by decide +kernel
  obtain rfl := Option.some.inj (hlast ▸ hsection)
  refine ⟨by simp [instrumentedFile, fitTo, sigSize], fun name hname h hmem => Or.inr (Or.inl ?_)⟩
  rcases hname with rfl | rfl | rfl | rfl | rfl <;>
    exact (by decide +kernel : ∀ h ∈ instrumentedLayout.named _, h.offset + h.size ≤ 72) h hmem

/-- `sign_tool` signs the file with an empty `.signature`, and the loader rejects the result. -/
theorem signed_rejected :
    ((signTool copyScheme (fitTo 32) readInstrumented () (instrumentedFile [])).map fun signed =>
      verifySignature copyScheme (fitTo 32) oneKey (elfContent readInstrumented signed)) = some false := by
  decide +kernel

theorem signed_accepted_presigned :
    ∃ signed, signTool copyScheme (fitTo 32) readInstrumented () (instrumentedFile [0x90, 1, 2]) = some signed ∧
      verifySignature copyScheme (fitTo 32) oneKey (elfContent readInstrumented signed) = true := by
  obtain ⟨signed, hsigned⟩ := Option.isSome_iff_exists.mp
    (show (signTool copyScheme (fitTo 32) readInstrumented () (instrumentedFile [0x90, 1, 2])).isSome by decide +kernel)
  have htables : (signTool copyScheme (fitTo 32) readInstrumented () (instrumentedFile [0x90, 1, 2])).bind
      readInstrumented = some instrumentedLayout := by decide +kernel
  rw [hsigned] at htables
  refine ⟨signed, hsigned, (signed_accepted_iff copyScheme (fitTo 32) readInstrumented () oneKey rfl rfl _ signed
    instrumentedLayout (by decide +kernel) hsigned htables (instrumented_apart _)).mpr ?_⟩
  exact ⟨⟨[0x90], [1, 2], [], []⟩, fitTo 64 [0x90, 1, 2], by decide +kernel, by decide +kernel, by decide +kernel⟩

/-- The code and the policy, carrying the signature of their hash. -/
def signedImage (text sentinel : List U8) : ElfImage where
  phdrs := []
  hasShstrtab := true
  sections := [.ofBytes (ascii ".text") text, .ofBytes (ascii ".sentinel") sentinel,
    .ofBytes (ascii ".signature") (fitTo 64 (fitTo 32 (text ++ sentinel)))]

/-- A byte moved from the policy to the code leaves the signature valid. -/
theorem moved_byte_accepted :
    (signedImage [0x90] [1, 2]).lastData (ascii ".signature") = (signedImage [0x90, 1] [2]).lastData (ascii ".signature") ∧
      verifySignature copyScheme (fitTo 32) oneKey (.elf (signedImage [0x90] [1, 2])) = true ∧
      verifySignature copyScheme (fitTo 32) oneKey (.elf (signedImage [0x90, 1] [2])) = true ∧
      (fedToDigest (signedImage [0x90] [1, 2]) (ascii ".sentinel")).map (·.message) =
        (fedToDigest (signedImage [0x90, 1] [2]) (ascii ".sentinel")).map (·.message) ∧
      fedToDigest (signedImage [0x90] [1, 2]) (ascii ".sentinel") ≠
        fedToDigest (signedImage [0x90, 1] [2]) (ascii ".sentinel") := by
  decide +kernel

theorem fitTo_fitTo_inj {a b : List U8} (h : fitTo 64 (fitTo 32 a) = fitTo 64 (fitTo 32 b)) : fitTo 32 a = fitTo 32 b := by
  have hlen : ∀ bytes : List U8, (fitTo 32 bytes).length = 32 := by simp [fitTo]
  have htake : ∀ bytes : List U8, (fitTo 64 (fitTo 32 bytes)).take 32 = fitTo 32 bytes := by
    intro bytes
    rw [fitTo, List.take_take, List.take_append_of_le_length (by rw [hlen]; decide), List.take_of_length_le (by rw [hlen]; decide)]
  rw [← htake a, h, htake]

/-- The image, and one with sections the loader does not look at. -/
theorem same_signature_instrumented :
    fedToDigest (signedImage [0x90] [1, 2]) (ascii ".sentinel") =
      fedToDigest (instrumentedImage (fitTo 64 [0x90, 1, 2])) (ascii ".sentinel") := by
  refine (same_signature_iff copyScheme (fitTo 32) () oneKey oneKey rfl rfl (signedImage [0x90] [1, 2])
    (instrumentedImage (fitTo 64 [0x90, 1, 2])) (fitTo 64 [0x90, 1, 2]) (by decide +kernel) (by decide +kernel)
    (by decide +kernel) (by decide +kernel) ?_ ?_).mpr (by decide +kernel)
  · intro d₁ d₂ hd₁ hd₂ _
    have hmessage : (fedToDigest (signedImage [0x90] [1, 2]) (ascii ".sentinel")).map (·.message) =
        (fedToDigest (instrumentedImage (fitTo 64 [0x90, 1, 2])) (ascii ".sentinel")).map (·.message) := by decide +kernel
    rw [hd₁, hd₂] at hmessage
    exact Option.some.inj hmessage
  · intro m₁ m₂ hm₁ hm₂
    exact fitTo_fitTo_inj ((of_decide_eq_true hm₁).symm.trans (of_decide_eq_true hm₂))

end SentinelStack.Cc

import C3RSpec.Base.JsonScalar
import C3RSpec.Runtime.CallOrder
import C3RSpec.Runtime.HostOwned

/-!
# The production host

`c3r/production_host.py:120–162` with `c3r/feature_flags.py:11–50`: which environments the
composition accepts, and what it is then composed of. A request for text that passes the checks
reaches the deliberator of every such host, whatever System One does.
-/

namespace C3RSpec.Runtime

open Base Telemetry Authority Candidates

/-! ### Flags -/

/-- `text.strip()`. -/
def stripText (t : Text) : Text := ((t.dropWhile isWhitespace).reverse.dropWhile isWhitespace).reverse

/-- `text.lower()` on ASCII. No other character is lowered to one of the words it is compared with. -/
def lowerText (t : Text) : Text :=
  t.map fun c ↦ if 65 ≤ c.val ∧ c.val ≤ 90 then c + 32 else c

/-- `_boolean`, with the default `False`. -/
def explicitBoolean (values : Dict Text Text) (name : String) : Except PyError Bool :=
  match values.get? name with
  | none => .ok false
  | some raw =>
    if lowerText (stripText raw) ∈ (["1", "true", "yes", "on"] : List Text) then .ok true
    else if lowerText (stripText raw) ∈ (["0", "false", "no", "off"] : List Text) then .ok false
    else .error (valueError (name ++ " must be an explicit boolean"))

/-- `FeatureFlags.from_mapping`; the flags that no run reads are parsed and dropped. -/
def FeatureFlags.fromMapping (values : Dict Text Text) : Except PyError FeatureFlags := do
  let enabledRequested ← explicitBoolean values "C3R_ENABLED"
  let systemOneRequested ← explicitBoolean values "C3R_SYSTEM_ONE"
  let deliberativeRequested ← explicitBoolean values "C3R_DELIBERATIVE"
  let _ ← explicitBoolean values "C3R_ROUTING"
  let _ ← explicitBoolean values "C3R_SPECULATION"
  let _ ← explicitBoolean values "C3R_MOE_CONTROL"
  let onlineLearningRequested ← explicitBoolean values "C3R_ONLINE_LEARNING"
  let systemOneProvider :=
    lowerText (stripText ((values.get? "C3R_SYSTEM_ONE_PROVIDER").getD "clm"))
  if systemOneProvider ∉ (["clm", "laya", "jev", "rule"] : List Text) then
    throw (valueError "C3R_SYSTEM_ONE_PROVIDER must be clm, laya, jev, or rule")
  else if onlineLearningRequested then
    throw (valueError "autonomous online learning is prohibited")
  else return { enabledRequested, systemOneRequested, deliberativeRequested, systemOneProvider }

/-! ### Composition -/

/-- An attestation key, `token_bytes(32)`. -/
abbrev HostKey : Type := { key : ByteArray // key.size = 32 }

/-- The verifier of the host. -/
def recommendationVerifier (candidate : ActionCandidate) : VerifierDecision :=
  ⟨decide (candidate.riskClass = .readOnly),
    "read-only recommendation; no tool execution or truth claim"⟩

/-- The evidence of the verifier can be signed. -/
theorem isScalar_recommendation (candidate : ActionCandidate) :
    (recommendationVerifier candidate).evidence.IsScalar := by
  change (Text.ofString "read-only recommendation; no tool execution or truth claim").IsScalar
  exact Text.isScalar_of_isAscii (by decide)

/-- What the host composes: the controller, the catalogs and the pinned manifest of local files. -/
structure ProductionHost where
  runtime : StandaloneController
  registry : CatalogRegistry
  artifacts : Option (Text × Text)

namespace ProductionHost

/-- The default confidence of `StateCompiler` is in range. -/
theorem minimumConfidence_default :
    (PyFloat.le (.fin 0) (.fin (1 / 2)) && PyFloat.le (.fin (1 / 2)) (.fin 1)) = true := by
  decide +kernel

/-- The default of `CandidateCompiler` is positive. -/
theorem perFamilyCap_default : 1 ≤ 8 := by decide

/-- The controller of the host. -/
def controller (flags : FeatureFlags) (key : HostKey) : StandaloneController where
  flags
  compiler :=
    { limits := { positive := StateLimits.positive_default }
      inRange := minimumConfidence_default }
  candidates := ⟨8, perFamilyCap_default⟩
  verifierIds := Dict.ofList [("recommendation", ())]
  verifierPolicy := { defaultVerifier := "recommendation" }
  attestationKey := key.val
  fastPathProvider := some "clm"

/-- The registered catalogs. -/
def catalogs : List Catalog :=
  [generalCatalog, browserCatalog, toolCatalog, generalCatalog "research-v1"]

/-- `len(container) != 71 or not container.startswith("sha256:")`, negated. -/
def isContainerDigest (container : Text) : Bool :=
  decide (container.length = 71) && (Text.ofString "sha256:").isPrefixOf container

/-- `build`. -/
def build (values : Dict Text Text) (key : HostKey) : Except PyError ProductionHost := do
  let flags ← FeatureFlags.fromMapping values
  if !flags.enabledRequested || !flags.systemOneEnabled || !flags.deliberativeEnabled ||
      flags.systemOneProvider != "clm" then
    throw (valueError "production host requires enabled CLM and deliberative inference")
  else if values.get? "C3R_MODE" ≠ some (Text.ofString "production_inference") then
    throw (valueError "production host requires production_inference mode")
  else if (["C3R_TRACE_COLLECTION", "C3R_ONLINE_LEARNING"] : List Text).any fun field ↦
      decide (lowerText ((values.get? field).getD "false") ∉ (["false", "off", "0"] : List Text)) then
    throw (valueError "production host cannot collect or learn online")
  else if !isContainerDigest ((values.get? "C3R_CLM_CONTAINER_DIGEST").getD []) then
    throw (valueError "measured immutable CLM container identity required")
  else
    let registry ← CatalogRegistry.new catalogs
    let manifest := (values.get? "C3R_INTERNAL_ARTIFACT_MANIFEST").getD []
    let pin := (values.get? "C3R_INTERNAL_ARTIFACT_MANIFEST_SHA256").getD []
    if manifest.isEmpty != pin.isEmpty then
      throw (valueError "internal required-file manifest and independent SHA pin must be paired")
    else if manifest.isEmpty then
      return { runtime := controller flags key, registry, artifacts := none }
    else if !isHash pin then
      throw (valueError "independent required-file manifest SHA-256 pin required")
    else return { runtime := controller flags key, registry, artifacts := some (manifest, pin) }

/-- Everything an accepted environment says. -/
theorem build_eq_ok {values : Dict Text Text} {key : HostKey} {host : ProductionHost}
    (h : build values key = .ok host) :
    ∃ flags, FeatureFlags.fromMapping values = .ok flags ∧ flags.systemOneEnabled = true ∧
      flags.deliberativeEnabled = true ∧ flags.systemOneProvider = Text.ofString "clm" ∧
      host.runtime = controller flags key ∧ CatalogRegistry.new catalogs = .ok host.registry := by
  unfold build at h
  obtain ⟨flags, hflags, h⟩ := bind_eq_ok.mp h
  split at h
  · cases h
  · next henabled =>
    simp only [Bool.or_eq_true, Bool.not_eq_true', bne_iff_ne, not_or, Bool.not_eq_false,
      ne_eq, not_not] at henabled
    obtain ⟨⟨⟨-, hsystem⟩, hdeliberative⟩, hprovider⟩ := henabled
    split at h
    · cases h
    · split at h
      · cases h
      · split at h
        · cases h
        · obtain ⟨registry, hregistry, h⟩ := bind_eq_ok.mp h
          refine ⟨flags, hflags, hsystem, hdeliberative, hprovider, ?_⟩
          dsimp only at h
          split at h
          · cases h
          · split at h
            · cases h
              exact ⟨rfl, hregistry⟩
            · split at h
              · cases h
              · cases h
                exact ⟨rfl, hregistry⟩

end ProductionHost

end C3RSpec.Runtime

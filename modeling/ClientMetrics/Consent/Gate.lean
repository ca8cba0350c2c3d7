import ClientMetrics.Consent.Bits
import ClientMetrics.Consent.Store
import ClientMetrics.Log.Event

/-!
# The consent gate

The gate asks the store anew each time and keeps nothing itself. Only an explicit refusal closes
it: a vendor whose consent is given or unknown may collect.
-/

namespace ClientMetrics

/-- Vendor whose consent gates collection unless another one is configured. -/
def defaultVendorId : UInt16 := 91

/-- Privacy settings. -/
structure PrivacySettings where
  vendorId : UInt16 := defaultVendorId
  deriving DecidableEq, Repr

/-- A store and the vendor whose consent is asked for. -/
structure ConsentGate where
  store : ConsentStore := {}
  vendorId : UInt16 := defaultVendorId
  deriving Repr

namespace ConsentGate

/-- The consent in force. -/
def consent (g : ConsentGate) : VendorConsent :=
  .read (g.store.getD vendorConsentsKey "") g.vendorId

/-- Collection is refused. -/
def isDisallowed (g : ConsentGate) : Bool :=
  g.consent = .notGiven

/-- The event noted at each evaluation. -/
def evaluated (g : ConsentGate) : Log.Event where
  severity := .trace
  target := "csm_privacy::consent"
  message := "evaluated vendor consent"
  fields := [("vendor_id", .number g.vendorId.toNat), ("consent", .plain g.consent.name)]

/-- Stores a consent string, or removes the one stored. -/
def setConsent (g : ConsentGate) : Option String → ConsentGate
  | some value => { g with store := g.store.set vendorConsentsKey value }
  | none => { g with store := g.store.remove vendorConsentsKey }

/-- Collection is refused exactly if the consent string says so of the vendor. -/
@[simp] theorem isDisallowed_iff (g : ConsentGate) :
    g.isDisallowed = true ↔ g.consent = .notGiven := by
  simp [isDisallowed]

end ConsentGate

end ClientMetrics

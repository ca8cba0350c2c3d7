/-!
# Vendor consent strings

A consent string carries one character per vendor: `1` if the vendor was granted consent, `0` if
it was refused. Vendors are numbered from one. `VendorConsent.read` looks a vendor up in the
encoded text; a string with any other byte says nothing about anyone.
-/

namespace ClientMetrics

/-- What a consent string says about one vendor. -/
inductive VendorConsent where
  | given
  | notGiven
  | unknown
  deriving DecidableEq, Repr

namespace VendorConsent

/-- The name shown in reports and log events. -/
def name : VendorConsent → String
  | given => "given"
  | notGiven => "not_given"
  | unknown => "unknown"

/-- The byte is one of the two digits a consent string is made of. -/
def isBit (b : UInt8) : Bool := b == 48 || b == 49

/-- What a vendor's own byte says; a missing or foreign byte says nothing. -/
def ofByte? : Option UInt8 → VendorConsent
  | some 49 => given
  | some 48 => notGiven
  | _ => unknown

/-- The consent of one vendor in the encoded bytes of a consent string. -/
def ofBytes (bytes : List UInt8) (vendor : UInt16) : VendorConsent :=
  if vendor = 0 then unknown
  else if bytes.all isBit then ofByte? bytes[vendor.toNat - 1]?
  else unknown

/-- The consent of one vendor in a consent string, read byte by byte. -/
def read (value : String) (vendor : UInt16) : VendorConsent :=
  ofBytes value.toUTF8.toList vendor

/-- Vendors are numbered from one, so nothing is said of number zero. -/
@[simp] theorem read_vendor_zero (value : String) : read value 0 = unknown := by
  simp [read, ofBytes]

end VendorConsent

end ClientMetrics

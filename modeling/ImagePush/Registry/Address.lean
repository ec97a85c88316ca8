import ImagePush.Text.Search

/-!
# Registry addresses

The address of a private registry names an account and a region:
`[http[s]://]<account>.dkr.ecr.<region>.amazonaws.com[...][/...]`. The account is a number and ends at the
first marker; the region is not empty and ends at the last domain suffix of the host. Not every region that
can be read this way fits into the name of another host.
-/

namespace ImagePush.Registry

/-- The account and the region of a registry. -/
structure Address where
  accountId : String
  region : String
  deriving DecidableEq, Repr

namespace Address

/-- What stands between the account and the region. -/
def marker : List Char := ".dkr.ecr.".toList

/-- The domain behind the region. -/
def domain : List Char := ".amazonaws.com".toList

/-- A URL without its scheme; at most one is dropped. -/
def withoutScheme (url : List Char) : List Char :=
  match Text.dropFront? "https://".toList url with
  | some rest => rest
  | none => (Text.dropFront? "http://".toList url).getD url

/-- The host of a URL. -/
def host (url : List Char) : List Char :=
  (withoutScheme url).takeWhile (· ≠ '/')

/-- The address that a host names. -/
def ofHost? (host : List Char) : Option Address := do
  let (account, rest) ← Text.splitFirst marker host
  let (region, _) ← Text.splitLast domain rest
  if account.isEmpty ∨ !account.all Char.isDigit ∨ region.isEmpty then none
  else some ⟨String.ofList account, String.ofList region⟩

/-- The address that a URL names. -/
def ofUrl? (url : String) : Option Address :=
  ofHost? (host url.toList)

/-! ### Hosts -/

/-- The greatest length of a part of a host. -/
def maxHostPart : Nat := 63

/-- Whether a text can be a part of a host: ASCII letters and digits, and hyphens but in front. -/
def isHostPart (part : List Char) : Bool :=
  !part.isEmpty && part.length ≤ maxHostPart && part.head? != some '-' &&
    part.all fun c => c.isAlphanum || c = '-'

/-- Whether the region fits into the name of a host, as one part or several. -/
def fitsHost (a : Address) : Bool :=
  (a.region.toList.splitOn '.').all isHostPart

end Address

end ImagePush.Registry

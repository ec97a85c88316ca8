import ImagePush.Error
import ImagePush.Proofs.Text.Search
import ImagePush.Registry.Exchange

/-!
# The grammar of registry addresses

The host of a URL stands between the scheme and the first slash (`HasHost`). It names an account and a region if
it consists of a number, the marker, the region, the domain and anything else (`Names`). An address is read from
exactly those URLs whose host names an account and a region; the account is always the same one, and of several
regions the longest one is taken (`address_of_url`).
-/

namespace ImagePush.Registry.Address

/-! ### The host of a URL -/

/-- The text in front of the first slash. -/
def UpToSlash (text front : List Char) : Prop :=
  '/' ∉ front ∧ (text = front ∨ ∃ more, text = front ++ '/' :: more)

/-- The text between the scheme of a URL, if there is one, and the first slash. -/
inductive HasHost : List Char → List Char → Prop where
  | https {rest host : List Char} (h : UpToSlash rest host) : HasHost ("https://".toList ++ rest) host
  | http {rest host : List Char} (h : UpToSlash rest host) : HasHost ("http://".toList ++ rest) host
  /-- A URL without a scheme. -/
  | bare {url host : List Char} (hs : ¬ "https://".toList <+: url) (hp : ¬ "http://".toList <+: url)
      (h : UpToSlash url host) : HasHost url host

theorem UpToSlash.takeWhile {text front : List Char} (h : UpToSlash text front) :
    text.takeWhile (· ≠ '/') = front := by
  obtain ⟨hslash, h⟩ := h
  have hpass : ∀ c ∈ front, decide (c ≠ '/') = true :=
    fun c hc => decide_eq_true fun heq => hslash (heq ▸ hc)
  rcases h with rfl | ⟨more, rfl⟩
  · have hall : (text ++ []).takeWhile (· ≠ '/') = text ++ [].takeWhile (· ≠ '/') :=
      List.takeWhile_append_of_pos hpass
    rwa [List.takeWhile_nil, List.append_nil] at hall
  · rw [List.takeWhile_append_of_pos hpass, List.takeWhile_cons_of_neg (by simp), List.append_nil]

theorem upToSlash_takeWhile (text : List Char) : UpToSlash text (text.takeWhile (· ≠ '/')) := by
  induction text with
  | nil => exact ⟨List.not_mem_nil, .inl rfl⟩
  | cons c text ih =>
    by_cases hc : c = '/'
    · subst hc
      rw [List.takeWhile_cons_of_neg (by simp)]
      exact ⟨List.not_mem_nil, .inr ⟨text, rfl⟩⟩
    · rw [List.takeWhile_cons_of_pos (by simpa using hc)]
      obtain ⟨hslash, h⟩ := ih
      refine ⟨List.not_mem_cons_of_ne_of_not_mem (Ne.symm hc) hslash, ?_⟩
      rcases h with h | ⟨more, h⟩
      · exact .inl (congrArg (c :: ·) h)
      · exact .inr ⟨more, congrArg (c :: ·) h⟩

theorem upToSlash_iff {text front : List Char} : UpToSlash text front ↔ text.takeWhile (· ≠ '/') = front := by
  constructor
  · exact UpToSlash.takeWhile
  · rintro rfl
    exact upToSlash_takeWhile text

/-- The host of a URL is what the URL is read for. -/
theorem hasHost_iff {url h : List Char} : HasHost url h ↔ host url = h := by
  unfold host withoutScheme
  constructor
  · intro hhost
    cases hhost with
    | https h =>
      rw [Text.dropFront?_append]
      exact upToSlash_iff.1 h
    | @http rest _ h =>
      have hother : ¬ "https://".toList <+: "http://".toList ++ rest := by simp
      rw [Text.dropFront?_eq_none_iff.2 hother, Text.dropFront?_append]
      exact upToSlash_iff.1 h
    | bare hs hp h =>
      rw [Text.dropFront?_eq_none_iff.2 hs, Text.dropFront?_eq_none_iff.2 hp]
      exact upToSlash_iff.1 h
  · intro hhost
    cases hs : Text.dropFront? "https://".toList url with
    | some rest =>
      rw [hs] at hhost
      rw [Text.eq_of_dropFront? hs]
      exact .https (upToSlash_iff.2 hhost)
    | none =>
      rw [hs] at hhost
      cases hp : Text.dropFront? "http://".toList url with
      | some rest =>
        rw [hp] at hhost
        rw [Text.eq_of_dropFront? hp]
        exact .http (upToSlash_iff.2 hhost)
      | none =>
        rw [hp] at hhost
        exact .bare (Text.dropFront?_eq_none_iff.1 hs) (Text.dropFront?_eq_none_iff.1 hp) (upToSlash_iff.2 hhost)

/-! ### The parts of a host -/

/-- A host names an account and a region, with some text behind the domain. -/
structure Names (host account region tail : List Char) : Prop where
  parts : host = account ++ (marker ++ (region ++ (domain ++ tail)))
  account_ne : account ≠ []
  digits : ∀ c ∈ account, c.isDigit = true
  region_ne : region ≠ []

variable {host account account' region region' tail tail' : List Char}

/-- An account has no dot, so that the marker is first found behind it. -/
theorem Names.splitFirst (hnames : Names host account region tail) :
    Text.splitFirst marker host = some (account, region ++ (domain ++ tail)) := by
  have hdot : '.' ∉ account := fun hdot => absurd (hnames.digits '.' hdot) (by decide)
  rw [hnames.parts]
  exact Text.splitFirst_append_of_not_mem hdot "dkr.ecr.".toList _

/-- Two ways to read a host whose regions have the same length are the same. -/
theorem Names.region_eq (hnames : Names host account region tail) (hnames' : Names host account' region' tail')
    (hlength : region.length = region'.length) : region = region' := by
  have hsplit := hnames.splitFirst
  rw [hnames'.splitFirst] at hsplit
  have hrest := congrArg Prod.snd (Option.some.inj hsplit)
  exact (List.append_inj_left hrest hlength.symm).symm

theorem names_of_ofHost? {a : Address} (h : ofHost? host = some a) :
    ∃ tail, Names host a.accountId.toList a.region.toList tail := by
  obtain ⟨⟨account, rest⟩, hfirst, h⟩ := Option.bind_eq_some_iff.1 h
  obtain ⟨⟨region, tail⟩, hlast, h⟩ := Option.bind_eq_some_iff.1 h
  simp only at h
  split at h
  · cases h
  · next hparts =>
    cases h
    simp only [List.isEmpty_iff, Bool.not_eq_true', not_or, Bool.not_eq_false, List.all_eq_true] at hparts
    obtain ⟨haccount, hdigits, hregion⟩ := hparts
    refine ⟨tail, ?_, ?_, ?_, ?_⟩
    · rw [String.toList_ofList, String.toList_ofList, ← Text.eq_of_splitLast hlast]
      exact Text.eq_of_splitFirst hfirst
    · rwa [String.toList_ofList]
    · rwa [String.toList_ofList]
    · rwa [String.toList_ofList]

/-- A host that names an account and a region has an address: with this account, and with a region that is at
least as long. -/
theorem Names.exists_ofHost? (hnames : Names host account region tail) :
    ∃ a, ofHost? host = some a ∧ a.accountId.toList = account ∧ region.length ≤ a.region.toList.length := by
  obtain ⟨last, behind, hlast, hle⟩ := Text.exists_splitLast domain region tail
  have hparts : ¬ (account.isEmpty = true ∨ (!account.all Char.isDigit) = true ∨ last.isEmpty = true) := by
    have hregion : 0 < region.length := List.length_pos_iff.2 hnames.region_ne
    have hlastne : last ≠ [] := List.length_pos_iff.1 (by omega)
    simp only [List.isEmpty_iff, Bool.not_eq_true', not_or, Bool.not_eq_false, List.all_eq_true]
    exact ⟨hnames.account_ne, hnames.digits, hlastne⟩
  refine ⟨⟨String.ofList account, String.ofList last⟩, ?_, String.toList_ofList, ?_⟩
  · refine Option.bind_eq_some_iff.2 ⟨_, hnames.splitFirst, Option.bind_eq_some_iff.2 ⟨_, hlast, ?_⟩⟩
    exact if_neg hparts
  · rw [String.toList_ofList]
    exact hle

/-- **An address is read from a host exactly if it is the one with the longest region that the host names.** -/
theorem ofHost?_eq_some_iff {a : Address} :
    ofHost? host = some a ↔
      (∃ tail, Names host a.accountId.toList a.region.toList tail) ∧
        ∀ account region tail, Names host account region tail →
          account = a.accountId.toList ∧ region.length ≤ a.region.toList.length := by
  constructor
  · intro h
    refine ⟨names_of_ofHost? h, fun account region tail hnames => ?_⟩
    obtain ⟨a', ha', haccount, hregion⟩ := hnames.exists_ofHost?
    rw [h] at ha'
    cases ha'
    exact ⟨haccount.symm, hregion⟩
  · rintro ⟨⟨tail, hnames⟩, hlongest⟩
    obtain ⟨a', ha', haccount, hregion⟩ := hnames.exists_ofHost?
    obtain ⟨tail', hnames'⟩ := names_of_ofHost? ha'
    have hle := (hlongest _ _ _ hnames').2
    have hsame := hnames.region_eq hnames' (by omega)
    rw [ha', Option.some.injEq, Address.mk.injEq]
    exact ⟨String.toList_inj.1 haccount, String.toList_inj.1 hsame.symm⟩

/-! ### The address of a URL -/

theorem ofUrl?_of_hasHost {url : String} (hhost : HasHost url.toList host) : ofUrl? url = ofHost? host := by
  rw [ofUrl?, hasHost_iff.1 hhost]

/-- Only a URL without an address is refused as such. -/
theorem request_eq_address_iff {access : CloudAccess} {found : Signers} {url : String} :
    request access found url = .error (.address url) ↔ ofUrl? url = none := by
  unfold request
  constructor
  · intro h
    split at h
    · assumption
    · split at h
      · cases h
      · split at h <;> cases h
  · intro h
    rw [h]

theorem message_address (url : String) :
    (PushError.registry (.address url)).message =
      "Failed to parse the ECR URL: " ++ url ++
        " it should be on the form <account number>.dkr.ecr.<region>.amazonaws.com" := by
  have hend : " it should be on the form " ++ "<account number>.dkr.ecr.<region>.amazonaws.com" =
      " it should be on the form <account number>.dkr.ecr.<region>.amazonaws.com" := rfl
  rw [← hend, ← String.append_assoc]
  rfl

/-- **The grammar of registry addresses.** A URL has one host, and it has an address exactly if the host names an
account and a region. The address is then the account, which is the same in every way to read the host, with the
longest region. Any other URL is refused, with a message that quotes it. URLs with one host have one address, whatever
their schemes are and whatever stands behind the host. -/
theorem address_of_url (url : String) : ∃ host : List Char,
    (∀ h, HasHost url.toList h ↔ h = host) ∧
    ((∃ a, ofUrl? url = some a) ↔ ∃ account region tail, Names host account region tail) ∧
    (∀ a, ofUrl? url = some a ↔
      (∃ tail, Names host a.accountId.toList a.region.toList tail) ∧
        ∀ account region tail, Names host account region tail →
          account = a.accountId.toList ∧ region.length ≤ a.region.toList.length) ∧
    (∀ access found, request access found url = .error (.address url) ↔ ofUrl? url = none) ∧
    (PushError.registry (.address url)).message =
      "Failed to parse the ECR URL: " ++ url ++
        " it should be on the form <account number>.dkr.ecr.<region>.amazonaws.com" ∧
    ∀ other : String, HasHost other.toList host → ofUrl? other = ofUrl? url := by
  refine ⟨host url.toList, fun h => hasHost_iff.trans eq_comm, ?_, fun a => ?_,
    fun access found => request_eq_address_iff, message_address url, fun other hother => ?_⟩
  · constructor
    · rintro ⟨a, ha⟩
      exact ⟨_, _, names_of_ofHost? ha⟩
    · rintro ⟨account, region, tail, hnames⟩
      obtain ⟨a, ha, -⟩ := hnames.exists_ofHost?
      exact ⟨a, ha⟩
  · exact ofHost?_eq_some_iff
  · exact ofUrl?_of_hasHost hother

/-- A host in which the marker and the domain occur twice. -/
def twiceMarked : String :=
  "123.dkr.ecr.a.amazonaws.com.dkr.ecr.b.amazonaws.com.cn"

theorem address_of_twice_marked :
    HasHost ("https://" ++ twiceMarked ++ "/app").toList twiceMarked.toList ∧
      ofUrl? ("https://" ++ twiceMarked ++ "/app") = some ⟨"123", "a.amazonaws.com.dkr.ecr.b"⟩ ∧
      Names twiceMarked.toList "123".toList "a".toList ".dkr.ecr.b.amazonaws.com.cn".toList ∧
      "a".toList.length ≤ "a.amazonaws.com.dkr.ecr.b".toList.length ∧
      HasHost twiceMarked.toList twiceMarked.toList ∧
      ofUrl? twiceMarked = some ⟨"123", "a.amazonaws.com.dkr.ecr.b"⟩ := by
  have hurl : HasHost ("https://" ++ twiceMarked ++ "/app").toList twiceMarked.toList :=
    hasHost_iff.2 (by decide)
  have hbare : HasHost twiceMarked.toList twiceMarked.toList := hasHost_iff.2 (by decide)
  have haddress : ofUrl? ("https://" ++ twiceMarked ++ "/app") = some ⟨"123", "a.amazonaws.com.dkr.ecr.b"⟩ := by
    decide
  have hshort : Names twiceMarked.toList "123".toList "a".toList ".dkr.ecr.b.amazonaws.com.cn".toList :=
    ⟨by decide, by decide, List.all_eq_true.1 rfl, by decide⟩
  obtain ⟨host, hhost, -, hread, -, -, hsame⟩ := address_of_url ("https://" ++ twiceMarked ++ "/app")
  obtain rfl := (hhost _).1 hurl
  exact ⟨hurl, haddress, hshort, (((hread _).1 haddress).2 _ _ _ hshort).2, hbare,
    (hsame twiceMarked hbare).trans haddress⟩

end ImagePush.Registry.Address

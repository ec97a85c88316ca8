import ImagePush.Proofs.Registry.Address

/-!
# Hosts and the domain of the registries

A host in one of the domains of the registries ends in the domain, or in the domain of the Chinese partition
(`InDomain`). The region of an address ends where the domain is last found, and what stands behind it is not looked at
(`ofHost?_eq_some_iff_lastDomain`). Hence an address is read from hosts of other domains too: the host is in a domain
of the registries exactly if nothing or the ending of the Chinese partition stands behind the last domain, and any
other text there makes no difference to the exchange of credentials (`domain_of_address`).
-/

namespace ImagePush.Registry

namespace Address

/-- What stands behind the domain in the Chinese partition. -/
def partition : List Char := ".cn".toList

/-- A host in one of the domains of the registries. -/
def InDomain (host : List Char) : Prop :=
  domain <:+ host ∨ domain ++ partition <:+ host

instance (host : List Char) : Decidable (InDomain host) :=
  inferInstanceAs (Decidable (_ ∨ _))

/-- No domain starts later in a domain with this text behind it. -/
def LastDomain (tail : List Char) : Prop :=
  ∀ front rest, domain ++ tail = front ++ (domain ++ rest) → front = []

variable {host account region tail tail' : List Char}

/-! ### The last domain -/

theorem lastDomain_iff : LastDomain tail ↔ Text.splitLast domain (domain ++ tail) = some ([], tail) := by
  constructor
  · intro hlast
    obtain ⟨front, rest, hsplit, -⟩ := Text.exists_splitLast domain [] tail
    rw [List.nil_append] at hsplit
    have hparts := Text.eq_of_splitLast hsplit
    obtain rfl := hlast front rest hparts
    rw [hsplit, List.append_cancel_left hparts]
  · intro hsplit front rest hparts
    have hle := Text.length_le_of_splitLast hsplit hparts
    exact List.eq_nil_of_length_eq_zero (Nat.le_zero.1 hle)

theorem lastDomain_nil : LastDomain [] :=
  lastDomain_iff.2 (by decide)

theorem lastDomain_partition : LastDomain partition :=
  lastDomain_iff.2 (by decide)

/-- The region of a host ends at the last domain. -/
theorem splitLast_region (hlast : LastDomain tail) (region : List Char) :
    Text.splitLast domain (region ++ (domain ++ tail)) = some (region, tail) := by
  obtain ⟨before, behind, hsplit, hle⟩ := Text.exists_splitLast domain region tail
  have hparts := Text.eq_of_splitLast hsplit
  rcases List.append_eq_append_iff.1 hparts with ⟨more, rfl, hmore⟩ | ⟨more, rfl, hmore⟩
  · obtain rfl := hlast more behind hmore
    rw [hsplit, List.append_nil, List.append_cancel_left hmore]
  · -- the text in front of the last domain is the whole region
    rw [List.length_append] at hle
    obtain rfl := List.eq_nil_of_length_eq_zero (l := more) (by omega)
    rw [hsplit, List.append_nil, List.append_cancel_left hmore]

/-- **An address is read from a host exactly if the host is made of its account, the marker, its region and the
domain, in front of a text with which no later domain is made.** -/
theorem ofHost?_eq_some_iff_lastDomain {a : Address} :
    ofHost? host = some a ↔ ∃ tail, Names host a.accountId.toList a.region.toList tail ∧ LastDomain tail := by
  constructor
  · intro h
    obtain ⟨tail, hnames⟩ := names_of_ofHost? h
    refine ⟨tail, hnames, fun front rest hparts => ?_⟩
    -- a later domain would make a longer region
    have hlonger : Names host a.accountId.toList (a.region.toList ++ front) rest := by
      refine ⟨?_, hnames.account_ne, hnames.digits, ?_⟩
      · rw [hnames.parts, hparts, List.append_assoc]
      · exact List.append_ne_nil_of_left_ne_nil hnames.region_ne front
    have hle := ((ofHost?_eq_some_iff.1 h).2 _ _ _ hlonger).2
    rw [List.length_append] at hle
    exact List.eq_nil_of_length_eq_zero (by omega)
  · rintro ⟨tail, hnames, hlast⟩
    have hparts : ¬ (a.accountId.toList.isEmpty = true ∨ (!a.accountId.toList.all Char.isDigit) = true ∨
        a.region.toList.isEmpty = true) := by
      simp only [List.isEmpty_iff, Bool.not_eq_true', not_or, Bool.not_eq_false, List.all_eq_true]
      exact ⟨hnames.account_ne, hnames.digits, hnames.region_ne⟩
    refine Option.bind_eq_some_iff.2 ⟨_, hnames.splitFirst, Option.bind_eq_some_iff.2
      ⟨_, splitLast_region hlast a.region.toList, ?_⟩⟩
    simp only
    rw [if_neg hparts, String.ofList_toList, String.ofList_toList]

/-! ### Hosts in a domain -/

/-- If a host ends in the domain, then nothing stands behind the last one; if it ends in the domain of the Chinese
partition, then nothing but the ending. -/
theorem eq_of_suffix {front ending : List Char} (hlast : LastDomain tail) (hending : LastDomain ending)
    (h : domain ++ ending <:+ front ++ (domain ++ tail)) : tail = ending := by
  obtain ⟨front', hfront⟩ := h
  rcases List.append_eq_append_iff.1 hfront with ⟨more, rfl, hmore⟩ | ⟨more, rfl, hmore⟩
  · obtain rfl := hending more tail hmore
    exact (List.append_cancel_left hmore).symm
  · obtain rfl := hlast more ending hmore
    exact List.append_cancel_left hmore

/-- **A host is in a domain of the registries exactly if nothing or the ending of the Chinese partition stands behind
the last domain.** -/
theorem Names.inDomain_iff (hnames : Names host account region tail) (hlast : LastDomain tail) :
    InDomain host ↔ tail = [] ∨ tail = partition := by
  have hhost : host = (account ++ (marker ++ region)) ++ (domain ++ tail) := by
    simp only [hnames.parts, List.append_assoc]
  constructor
  · rintro (h | h)
    · left
      apply eq_of_suffix hlast lastDomain_nil
      rw [List.append_nil, ← hhost]
      exact h
    · right
      apply eq_of_suffix hlast lastDomain_partition
      rw [← hhost]
      exact h
  · rintro (rfl | rfl)
    · left
      rw [hhost, List.append_nil]
      exact List.suffix_append _ domain
    · right
      rw [hhost]
      exact List.suffix_append _ (domain ++ partition)

/-- The same host with another text behind the domain. -/
theorem Names.withTail (hnames : Names host account region tail) (tail' : List Char) :
    Names (account ++ (marker ++ (region ++ (domain ++ tail')))) account region tail' :=
  ⟨rfl, hnames.account_ne, hnames.digits, hnames.region_ne⟩

end Address

/-! ### The exchange -/

variable {access : CloudAccess} {found : Signers} {url other : String}

/-- URLs with one address are asked about in one way. -/
theorem request_congr {a : Address} (hurl : Address.ofUrl? url = some a) (hother : Address.ofUrl? other = some a) :
    request access found other = request access found url := by
  simp only [request, hurl, hother]

theorem exchange_congr {a : Address} (hurl : Address.ofUrl? url = some a) (hother : Address.ofUrl? other = some a)
    (service : SignedRequest → Reply) :
    exchange access found service other = exchange access found service url := by
  rw [exchange, exchange, request_congr hurl hother]

namespace Address

/-- **What the host of an address is.** If an address is read from a URL, then the host of the URL is the account, the
marker, the region, the domain and a text with which no later domain is made. The host is in a domain of the registries
exactly if this text is empty or the ending of the Chinese partition. It is not looked at otherwise: with any other
such text in its place, and whatever stands around the host, the same address is read and the credentials are
exchanged in the same way. -/
theorem domain_of_address (url : String) (a : Address) (h : ofUrl? url = some a) :
    ∃ host tail, HasHost url.toList host ∧ Names host a.accountId.toList a.region.toList tail ∧ LastDomain tail ∧
      (InDomain host ↔ tail = [] ∨ tail = partition) ∧
      ∀ tail', LastDomain tail' → ∀ other : String,
        HasHost other.toList (a.accountId.toList ++ (marker ++ (a.region.toList ++ (domain ++ tail')))) →
        ofUrl? other = some a ∧
          ∀ access found service, exchange access found service other = exchange access found service url := by
  have hhost : HasHost url.toList (host url.toList) := hasHost_iff.2 rfl
  obtain ⟨tail, hnames, hlast⟩ := ofHost?_eq_some_iff_lastDomain.1 h
  refine ⟨host url.toList, tail, hhost, hnames, hlast, hnames.inDomain_iff hlast, ?_⟩
  intro tail' hlast' other hother
  have haddress : ofUrl? other = some a := by
    rw [ofUrl?_of_hasHost hother]
    exact ofHost?_eq_some_iff_lastDomain.2 ⟨tail', hnames.withTail tail', hlast'⟩
  exact ⟨haddress, fun access found service => exchange_congr h haddress service⟩

/-- A registry with the name of another host behind its domain. -/
def foreignHost : String := "123456789012.dkr.ecr.us-east-1.amazonaws.com.example.org"

theorem domain_of_foreign_address :
    ofUrl? ("https://" ++ foreignHost ++ "/app") = some ⟨"123456789012", "us-east-1"⟩ ∧
      HasHost ("https://" ++ foreignHost ++ "/app").toList foreignHost.toList ∧
      LastDomain partition ∧
      ofUrl? "http://123456789012.dkr.ecr.us-east-1.amazonaws.com.cn" = some ⟨"123456789012", "us-east-1"⟩ := by
  have haddress : ofUrl? ("https://" ++ foreignHost ++ "/app") = some ⟨"123456789012", "us-east-1"⟩ := by
    decide
  obtain ⟨_, _, -, -, -, -, hsame⟩ :=
    domain_of_address ("https://" ++ foreignHost ++ "/app") ⟨"123456789012", "us-east-1"⟩ haddress
  exact ⟨haddress, hasHost_iff.2 (by decide), lastDomain_partition,
    (hsame partition lastDomain_partition _ (hasHost_iff.2 (by decide))).1⟩

/-- **Not only hosts in a domain of the registries have an address**, and for another host, too, the credentials are
those with which the service answers. -/
theorem foreign_host_accepted :
    (¬ ∀ (url : String) (a : Address) (host : List Char),
        ofUrl? url = some a → HasHost url.toList host → InDomain host) ∧
      ∀ service : SignedRequest → Reply,
        exchange ⟨"key", "secret", "", ""⟩ {} service foreignHost =
          credentialsOfReply "123456789012" (service ⟨.tokens, ⟨"key", "secret", none⟩, "us-east-1"⟩) := by
  have haddress : ofUrl? foreignHost = some ⟨"123456789012", "us-east-1"⟩ := by decide
  have hhost : HasHost foreignHost.toList foreignHost.toList := hasHost_iff.2 (by decide)
  have hrequest : request ⟨"key", "secret", "", ""⟩ {} foreignHost =
      .ok ("123456789012", ⟨.tokens, ⟨"key", "secret", none⟩, "us-east-1"⟩) := by
    rfl
  constructor
  · intro hall
    have hdomain : InDomain foreignHost.toList := hall _ _ _ haddress hhost
    exact absurd hdomain (by decide)
  · intro service
    rw [exchange, hrequest]

end Address

end ImagePush.Registry

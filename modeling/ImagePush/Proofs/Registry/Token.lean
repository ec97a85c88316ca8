import ImagePush.Proofs.Text.Base64
import ImagePush.Proofs.Text.Search
import ImagePush.Proofs.Text.Utf8
import ImagePush.Registry.Credentials

/-!
# Tokens and the credentials they carry

The token of credentials is the one text, up to blanks around it, from which these credentials are read
(`token_carries_one_pair`). Credentials can be carried if there is no colon in the user name; the password may be
any text.
-/

namespace ImagePush.Registry

namespace Credentials

variable (c : Credentials)

/-- What a token encodes. -/
def plainText : List Char :=
  c.username.toList ++ ':' :: c.password.toList

/-- The bytes of a token are an encoding, hence ASCII. -/
theorem encode_token : Text.Utf8.encode c.token = Text.Base64.encode (Text.Utf8.encode c.plainText) := by
  refine Text.Utf8.encode_ascii (Text.Base64.forall_mem_encode ?_ (by decide) _)
  decide

theorem trimChars_token : Text.trimChars c.token = c.token := by
  refine Text.trimChars_of_forall fun s hs => ?_
  obtain ⟨b, hb, rfl⟩ := List.mem_map.1 hs
  refine Text.Base64.forall_mem_encode (P := fun b => Text.isBlank (Char.ofNat b.toNat) = false) ?_ (by decide) _ b hb
  decide

theorem trim_token : Text.trim (String.ofList c.token) = String.ofList c.token := by
  rw [Text.trim, String.toList_ofList, trimChars_token]

/-- Credentials are read from a token step by step: the symbols, the bytes and the text. -/
theorem ofToken_eq_ok_iff {token : String} :
    ofToken token = .ok c ↔ ':' ∉ c.username.toList ∧ Text.trim token = String.ofList c.token := by
  rw [Text.trim, String.ofList_inj]
  constructor
  · intro h
    obtain ⟨bytes, hbytes, h⟩ := bind_eq_ok.1 h
    obtain ⟨text, htext, h⟩ := bind_eq_ok.1 h
    have hsymbols := Text.Base64.decode_eq_ok_iff.1 (mapError_eq_ok.1 hbytes)
    have hcharacters := Text.Utf8.decode_eq_ok_iff.1 (mapError_eq_ok.1 htext)
    split at h
    · next username password hcut =>
      obtain rfl := Except.ok.inj h
      obtain ⟨rfl, hcolon⟩ := Text.splitFirst_letter_eq_some_iff.1 hcut
      refine ⟨by rwa [String.toList_ofList], Text.Utf8.encode_injective ?_⟩
      rw [hsymbols, hcharacters, encode_token, plainText, String.toList_ofList, String.toList_ofList]
    · cases h
  · rintro ⟨hcolon, htoken⟩
    have hbytes : Text.Base64.decode (Text.Utf8.encode (Text.trimChars token.toList)) =
        .ok (Text.Utf8.encode c.plainText) := by
      rw [htoken, encode_token]
      exact Text.Base64.decode_eq_ok_iff.2 rfl
    have htext : Text.Utf8.decode (Text.Utf8.encode c.plainText) = .ok c.plainText :=
      Text.Utf8.decode_eq_ok_iff.2 rfl
    have hcut : Text.splitFirst [':'] c.plainText = some (c.username.toList, c.password.toList) :=
      Text.splitFirst_letter_eq_some_iff.2 ⟨rfl, hcolon⟩
    refine bind_eq_ok.2 ⟨_, mapError_eq_ok.2 hbytes, bind_eq_ok.2 ⟨_, mapError_eq_ok.2 htext, ?_⟩⟩
    rw [hcut]
    show Except.ok (Credentials.mk (String.ofList c.username.toList) (String.ofList c.password.toList)) = .ok c
    rw [String.ofList_toList, String.ofList_toList]

end Credentials

/-- **A token carries one pair of credentials, and a pair is carried by one token.** Credentials are read from a text
exactly if it is their token between blanks and no colon stands in the user name. So all such credentials come back
from their token, and texts from which the same credentials are read are the same between their blanks. -/
theorem token_carries_one_pair (token username password : String) :
    (Credentials.ofToken token = .ok ⟨username, password⟩ ↔
      ':' ∉ username.toList ∧ Text.trim token = String.ofList (Credentials.token ⟨username, password⟩)) ∧
    (':' ∉ username.toList →
      Credentials.ofToken (String.ofList (Credentials.token ⟨username, password⟩)) = .ok ⟨username, password⟩) ∧
    ∀ other : String, Credentials.ofToken token = .ok ⟨username, password⟩ →
      Credentials.ofToken other = .ok ⟨username, password⟩ → Text.trim token = Text.trim other := by
  refine ⟨Credentials.ofToken_eq_ok_iff _, fun hcolon => ?_, fun other htoken hother => ?_⟩
  · exact (Credentials.ofToken_eq_ok_iff _).2 ⟨hcolon, Credentials.trim_token _⟩
  · rw [((Credentials.ofToken_eq_ok_iff _).1 htoken).2, ((Credentials.ofToken_eq_ok_iff _).1 hother).2]

/-- A password with colons and beyond ASCII, and a token between blanks of two kinds. -/
theorem token_carries_colons :
    ':' ∉ "AWS".toList ∧ Credentials.ofToken "\u00a0QVdTOnA6w7w6\n" = .ok ⟨"AWS", "p:ü:"⟩ ∧
      Credentials.ofToken "QVdTOnA6w7w6" = .ok ⟨"AWS", "p:ü:"⟩ ∧
      Text.trim "\u00a0QVdTOnA6w7w6\n" = Text.trim "QVdTOnA6w7w6" := by
  have hcolon : ':' ∉ "AWS".toList := by decide
  obtain ⟨hread, hback, hsame⟩ := token_carries_one_pair "\u00a0QVdTOnA6w7w6\n" "AWS" "p:ü:"
  have hfirst : Credentials.ofToken "\u00a0QVdTOnA6w7w6\n" = .ok ⟨"AWS", "p:ü:"⟩ :=
    hread.2 ⟨hcolon, by decide⟩
  have hsecond : Credentials.ofToken "QVdTOnA6w7w6" = .ok ⟨"AWS", "p:ü:"⟩ := hback hcolon
  exact ⟨hcolon, hfirst, hsecond, hsame _ hfirst hsecond⟩

end ImagePush.Registry

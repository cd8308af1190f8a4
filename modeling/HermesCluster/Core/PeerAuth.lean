import HermesCluster.Lib.Decimal
/-!
# Peer authentication

Requests between nodes carry an HMAC over the node, the time, the method, the
path with its query, and the hash of the body. The digest functions are
parameters.
-/

namespace HermesCluster

/-- `hashlib.sha256(body).digest()` and `hmac.new(key, message, sha256).digest()`. -/
class Sha256 where
  digest : List UInt8 → List UInt8
  mac : List UInt8 → List UInt8 → List UInt8
  mac_ne_nil : ∀ key message, mac key message ≠ []

/-- The digests taken as injective. -/
structure Sha256.Injective [Sha256] : Prop where
  digest : Function.Injective Sha256.digest
  mac : Function.Injective2 Sha256.mac

namespace PeerAuth

/-! ## Texts and bytes -/

/-- `s.encode()`. -/
def encode (s : String) : List UInt8 :=
  s.toByteArray.data.toList

/-- `s.encode("latin-1")` and `s.encode("ascii")`: one byte for each character
below the limit, or an error. -/
def encodeBelow (limit : Nat) (s : String) : Option (List UInt8) :=
  if s.toList.all (fun c => c.toNat < limit) then
    some (s.toList.map (fun c => UInt8.ofNat c.toNat))
  else none

/-- `bytes.hex()`. -/
def hex (bytes : List UInt8) : String :=
  String.ofList (bytes.flatMap fun b => Text.hex 2 b.toNat)

/-! ## Signing -/

section Digests

variable [Sha256]

/-- The message that is signed. -/
def message (nodeId ts method path : String) (body : List UInt8) : String :=
  nodeId ++ ":" ++ ts ++ ":" ++ method ++ ":" ++ path ++ ":" ++ hex (Sha256.digest body)

/-- The signature of a request. -/
def signature (token nodeId ts method path : String) (body : List UInt8) : String :=
  hex (Sha256.mac (encode token) (encode (message nodeId ts method path body)))

/-- The headers of a request, by name. -/
abbrev Headers : Type := List (String × String)

/-- `headers.get(name, "")`. -/
def header (headers : Headers) (name : String) : String :=
  (headers.lookup name).getD ""

/-- The headers that sign a request at a time. -/
def signedHeaders (token nodeId : String) (ts : Int) (method path : String) (body : List UInt8) :
    Except String Headers := do
  let text ← Decimal.str ts
  pure [("X-Peer-Node", nodeId), ("X-Peer-Timestamp", text),
    ("X-Peer-Signature", signature token nodeId text method path body)]

end Digests

/-! ## Texts and bytes are told apart -/

theorem encode_injective : Function.Injective encode := by
  intro s t h
  refine String.toByteArray_inj.mp (ByteArray.ext ?_)
  exact Array.toList_inj.mp h

theorem hexDigit_spec : ∀ n : Fin 16, (Text.hexDigit n.val).toNat < 128 ∧
    Text.hexDigit n.val ≠ ':' ∧
      ∀ m : Fin 16, Text.hexDigit n.val = Text.hexDigit m.val → n = m := by
  decide

theorem hex_byte (b : UInt8) :
    Text.hex 2 b.toNat = [Text.hexDigit (b.toNat / 16 % 16), Text.hexDigit (b.toNat % 16)] := rfl

/-- Two bytes with the same digits are one. -/
theorem hex_byte_injective {a b : UInt8} (h : Text.hex 2 a.toNat = Text.hex 2 b.toNat) : a = b := by
  rw [hex_byte, hex_byte] at h
  injection h with hhigh hlow
  injection hlow with hlow
  have hdigit : ∀ {m n : Nat}, Text.hexDigit (m % 16) = Text.hexDigit (n % 16) →
      m % 16 = n % 16 := by
    intro m n hmn
    have hspec := hexDigit_spec ⟨m % 16, Nat.mod_lt _ (by decide)⟩
    exact congrArg Fin.val (hspec.2.2 ⟨n % 16, Nat.mod_lt _ (by decide)⟩ hmn)
  have h₁ := hdigit hhigh
  have h₂ := hdigit hlow
  have ha := a.toNat_lt
  have hb := b.toNat_lt
  exact UInt8.toNat_inj.mp (by omega)

theorem toList_hex (bytes : List UInt8) :
    (hex bytes).toList = bytes.flatMap fun b => Text.hex 2 b.toNat :=
  String.toList_ofList

theorem hex_injective : Function.Injective hex := by
  intro xs ys h
  have hlists : (xs.flatMap fun b => Text.hex 2 b.toNat) =
      ys.flatMap fun b => Text.hex 2 b.toNat := by
    rw [← toList_hex, ← toList_hex, h]
  clear h
  induction xs generalizing ys with
  | nil =>
      cases ys with
      | nil => rfl
      | cons b ys => cases hlists
  | cons a xs ih =>
      cases ys with
      | nil => cases hlists
      | cons b ys =>
          rw [List.flatMap_cons, List.flatMap_cons] at hlists
          obtain ⟨hhere, hrest⟩ := List.append_inj hlists rfl
          rw [hex_byte_injective hhere, ih hrest]

theorem mem_hex {bytes : List UInt8} {c : Char} (h : c ∈ (hex bytes).toList) :
    c.toNat < 128 ∧ c ≠ ':' := by
  rw [toList_hex] at h
  obtain ⟨b, -, hc⟩ := List.mem_flatMap.mp h
  have hdigit : ∀ n : Nat, (Text.hexDigit (n % 16)).toNat < 128 ∧ Text.hexDigit (n % 16) ≠ ':' := by
    intro n
    have := hexDigit_spec ⟨n % 16, Nat.mod_lt _ (by decide)⟩
    exact ⟨this.1, this.2.1⟩
  rw [hex_byte] at hc
  rcases List.mem_cons.mp hc with rfl | hc
  · exact hdigit _
  · rw [List.mem_singleton.mp hc]
    exact hdigit _

/-- What fits one byte a character is told apart by its bytes. -/
theorem eq_of_encodeBelow {m n : Nat} (hm : m ≤ 256) (hn : n ≤ 256) {s t : String}
    {bytes : List UInt8} (hs : encodeBelow m s = some bytes) (ht : encodeBelow n t = some bytes) :
    s = t := by
  have hbytes : ∀ {k : Nat} {u : String}, k ≤ 256 → encodeBelow k u = some bytes →
      u.toList = bytes.map (fun b => Char.ofNat b.toNat) := by
    intro k u hk hu
    unfold encodeBelow at hu
    split at hu
    · rename_i hall
      cases hu
      rw [List.map_map]
      refine ((List.map_congr_left fun c hc => ?_).trans (List.map_id _)).symm
      have hc' : c.toNat < k := of_decide_eq_true (List.all_eq_true.mp hall c hc)
      have hnat : (UInt8.ofNat c.toNat).toNat = c.toNat := by
        rw [UInt8.toNat_ofNat']
        omega
      change Char.ofNat (UInt8.ofNat c.toNat).toNat = c
      rw [hnat]
      exact Char.ofNat_toNat c
    · cases hu
  exact String.toList_inj.mp ((hbytes hm hs).trans (hbytes hn ht).symm)

theorem encodeBelow_eq_some {limit : Nat} {s : String} (h : ∀ c ∈ s.toList, c.toNat < limit) :
    encodeBelow limit s = some (s.toList.map (fun c => UInt8.ofNat c.toNat)) :=
  if_pos (List.all_eq_true.mpr fun c hc => decide_eq_true (h c hc))

theorem append_cons_inj {α : Type} {c : α} {xs ys xs' ys' : List α} (hxs : c ∉ xs) (hxs' : c ∉ xs')
    (h : xs ++ c :: ys = xs' ++ c :: ys') : xs = xs' ∧ ys = ys' := by
  induction xs generalizing xs' with
  | nil =>
      cases xs' with
      | nil => exact ⟨rfl, List.cons.inj h |>.2⟩
      | cons d xs' => exact absurd (List.cons.inj h).1 (fun heq => hxs' (heq ▸ List.mem_cons_self))
  | cons d xs ih =>
      cases xs' with
      | nil => exact absurd (List.cons.inj h).1.symm (fun heq => hxs (heq ▸ List.mem_cons_self))
      | cons d' xs' =>
          obtain ⟨rfl, hrest⟩ := List.cons.inj h
          obtain ⟨rfl, rfl⟩ := ih (fun hc => hxs (List.mem_cons_of_mem _ hc))
            (fun hc => hxs' (List.mem_cons_of_mem _ hc)) hrest
          exact ⟨rfl, rfl⟩

theorem append_cons_inj_right {α : Type} {c : α} {xs ys xs' ys' : List α} (hys : c ∉ ys)
    (hys' : c ∉ ys') (h : xs ++ c :: ys = xs' ++ c :: ys') : xs = xs' ∧ ys = ys' := by
  have hreverse := congrArg List.reverse h
  simp only [List.reverse_append, List.reverse_cons, List.append_assoc, List.singleton_append]
    at hreverse
  obtain ⟨hy, hx⟩ := append_cons_inj (fun hc => hys (List.mem_reverse.mp hc))
    (fun hc => hys' (List.mem_reverse.mp hc)) hreverse
  exact ⟨List.reverse_inj.mp hx, List.reverse_inj.mp hy⟩

section Messages

variable [Sha256]

/-- A node signs different requests as different messages. -/
theorem message_injective (hinj : Sha256.Injective)
    {nodeId ts ts' method method' path path' : String} {body body' : List UInt8}
    (hts : ':' ∉ ts.toList) (hts' : ':' ∉ ts'.toList)
    (hmethod : ':' ∉ method.toList) (hmethod' : ':' ∉ method'.toList)
    (h : message nodeId ts method path body = message nodeId ts' method' path' body') :
    ts = ts' ∧ method = method' ∧ path = path' ∧ body = body' := by
  have hlists := congrArg String.toList h
  simp only [message, String.toList_append, List.append_assoc] at hlists
  have hcolon : (":" : String).toList = [':'] := rfl
  rw [hcolon] at hlists
  simp only [List.singleton_append] at hlists
  obtain ⟨-, hlists⟩ := List.append_inj hlists rfl
  obtain ⟨htext, hlists⟩ := append_cons_inj hts hts' (List.cons.inj hlists).2
  obtain ⟨hverb, hlists⟩ := append_cons_inj hmethod hmethod' hlists
  obtain ⟨hpath, hhash⟩ := append_cons_inj_right (fun hc => (mem_hex hc).2 rfl)
    (fun hc => (mem_hex hc).2 rfl) hlists
  refine ⟨String.toList_inj.mp htext, String.toList_inj.mp hverb, String.toList_inj.mp hpath, ?_⟩
  exact hinj.digest (hex_injective (String.toList_inj.mp hhash))

theorem signature_injective (hinj : Sha256.Injective) {token token' nodeId nodeId' ts ts' : String}
    {method method' path path' : String} {body body' : List UInt8}
    (h : signature token nodeId ts method path body =
      signature token' nodeId' ts' method' path' body') :
    token = token' ∧ message nodeId ts method path body =
      message nodeId' ts' method' path' body' := by
  obtain ⟨hkey, hmessage⟩ := hinj.mac (hex_injective h)
  exact ⟨encode_injective hkey, encode_injective hmessage⟩

end Messages

end PeerAuth

open PeerAuth

/-- `PeerAuthState`. -/
structure PeerAuthState where
  localNodeId : String := ""
  localToken : String := ""
  peerTokens : List (String × String) := []
  replayWindow : Int := 60

namespace PeerAuthState

def isConfigured (st : PeerAuthState) : Bool :=
  st.localToken ≠ "" && st.localNodeId ≠ ""

variable [Sha256]

/-- `sign_request`; a timestamp of zero is none. -/
def signRequest (st : PeerAuthState) (now : Int) (method path : String) (body : List UInt8)
    (timestamp : Option Int) : Except String Headers :=
  if st.isConfigured = false then pure []
  else
    let ts := match timestamp with
      | none | some 0 => now
      | some ts => ts
    signedHeaders st.localToken st.localNodeId ts method path body

def failed : Bool × String := (false, "peer_auth_failed")

/-- `verify_request`. -/
def verifyRequest [Unicode] (st : PeerAuthState) (now : Int) (method path : String)
    (body : List UInt8) (headers : Headers) : Except String (Bool × String) := do
  let nodeId := header headers "X-Peer-Node"
  let timestampStr := header headers "X-Peer-Timestamp"
  let presented := header headers "X-Peer-Signature"
  if nodeId = "" ∨ timestampStr = "" ∨ presented = "" then pure failed
  else
    match st.peerTokens.lookup nodeId with
    | none => pure failed
    | some token =>
        if token = "" then pure failed
        else
          match Decimal.int timestampStr with
          | none => pure failed
          | some ts =>
              if st.replayWindow < |now - ts| then pure failed
              else
                let expected := signature token nodeId (← Decimal.str ts) method path body
                match encodeBelow 256 presented, encodeBelow 128 expected with
                | some sent, some wanted =>
                    if wanted = sent then pure (true, "") else pure failed
                | _, _ => pure failed

/-! ## What is accepted -/

/-- A stored token of the node that a request names vouches for it: it is in the
window, and its signature is the one that this token gives for it. -/
structure Vouches [Unicode] (st : PeerAuthState) (now : Int) (method path : String)
    (body : List UInt8) (headers : Headers) (token : String) (ts : Int) : Prop where
  named : header headers "X-Peer-Node" ≠ ""
  known : st.peerTokens.lookup (header headers "X-Peer-Node") = some token
  token_ne : token ≠ ""
  parsed : Decimal.int (header headers "X-Peer-Timestamp") = some ts
  fresh : |now - ts| ≤ st.replayWindow
  signed : ∃ text, Decimal.str ts = .ok text ∧ header headers "X-Peer-Signature" =
    signature token (header headers "X-Peer-Node") text method path body

theorem signature_ne_empty (token nodeId ts method path : String) (body : List UInt8) :
    signature token nodeId ts method path body ≠ "" := by
  intro hempty
  have hnil := congrArg String.toList hempty
  unfold signature at hnil
  rw [toList_hex] at hnil
  cases hbytes : Sha256.mac (encode token) (encode (message nodeId ts method path body)) with
  | nil => exact Sha256.mac_ne_nil _ _ hbytes
  | cons b bytes =>
      rw [hbytes, List.flatMap_cons, hex_byte] at hnil
      cases hnil

omit [Sha256] in
theorem int_empty [Unicode] : Decimal.int "" = none := rfl

omit [Sha256] in
/-- The comparison of the signatures. -/
theorem sameBytes_iff {presented expected : String}
    (hexpected : ∀ c ∈ expected.toList, c.toNat < 128) :
    (match encodeBelow 256 presented, encodeBelow 128 expected with
      | some sent, some wanted =>
          if wanted = sent then (pure (true, "") : Except String (Bool × String)) else pure failed
      | _, _ => pure failed) = .ok (true, "") ↔ presented = expected := by
  constructor
  · intro h
    split at h
    · rename_i sent wanted hsent hwanted
      split at h
      · rename_i heq
        subst heq
        exact eq_of_encodeBelow (by decide) (by decide) hsent hwanted
      · cases h
    · cases h
  · rintro rfl
    rw [encodeBelow_eq_some hexpected,
      encodeBelow_eq_some (fun c hc => Nat.lt_trans (hexpected c hc) (by decide))]
    exact if_pos rfl

theorem verifyRequest_iff [Unicode] (st : PeerAuthState) (now : Int) (method path : String)
    (body : List UInt8) (headers : Headers) :
    st.verifyRequest now method path body headers = .ok (true, "") ↔
      ∃ token ts, st.Vouches now method path body headers token ts := by
  unfold verifyRequest
  dsimp only
  constructor
  · intro h
    split at h
    · cases h
    · rename_i hsent
      rw [not_or, not_or] at hsent
      split at h
      · cases h
      · rename_i token hknown
        split at h
        · cases h
        · rename_i htoken
          split at h
          · cases h
          · rename_i ts hparsed
            split at h
            · cases h
            · rename_i hfresh
              obtain ⟨text, htext⟩ := Decimal.str_of_int hparsed
              rw [htext] at h
              have hsigned := (sameBytes_iff fun c hc => (mem_hex hc).1).mp h
              exact ⟨token, ts, hsent.1, hknown, htoken, hparsed, Int.not_lt.mp hfresh, text,
                htext, hsigned⟩
  · rintro ⟨token, ts, h⟩
    obtain ⟨text, htext, hsigned⟩ := h.signed
    have hsent : ¬(header headers "X-Peer-Node" = "" ∨ header headers "X-Peer-Timestamp" = "" ∨
        header headers "X-Peer-Signature" = "") := by
      rintro (hnode | htime | hsignature)
      · exact h.named hnode
      · have hparsed := h.parsed
        rw [htime, int_empty] at hparsed
        cases hparsed
      · exact signature_ne_empty _ _ _ _ _ _ (hsigned.symm.trans hsignature)
    rw [if_neg hsent, h.known]
    dsimp only
    rw [if_neg h.token_ne, h.parsed]
    dsimp only
    rw [if_neg (Int.not_lt.mpr h.fresh), htext]
    exact (sameBytes_iff fun c hc => (mem_hex hc).1).mpr hsigned

/-! ## What is signed is accepted -/

theorem signedHeaders_eq_ok {token nodeId method path : String} {ts : Int} {body : List UInt8}
    {headers : Headers} (h : signedHeaders token nodeId ts method path body = .ok headers) :
    ∃ text, Decimal.str ts = .ok text ∧ header headers "X-Peer-Node" = nodeId ∧
      header headers "X-Peer-Timestamp" = text ∧
      header headers "X-Peer-Signature" = signature token nodeId text method path body := by
  unfold signedHeaders at h
  cases htext : Decimal.str ts with
  | error message =>
      rw [htext] at h
      cases h
  | ok text =>
      rw [htext] at h
      cases h
      exact ⟨text, rfl, rfl, rfl, rfl⟩

/-- Signed headers are vouched for wherever the token is stored under the node. -/
theorem vouches_of_signed [Unicode] {verifier : PeerAuthState} {token nodeId method path : String}
    {signedAt now ts : Int} {body : List UInt8} {headers : Headers} (hnode : nodeId ≠ "")
    (htoken : token ≠ "") (hknown : verifier.peerTokens.lookup nodeId = some token)
    (hsigned : signedHeaders token nodeId signedAt method path body = .ok headers)
    (hparsed : Decimal.int (header headers "X-Peer-Timestamp") = some ts)
    (hfresh : |now - ts| ≤ verifier.replayWindow) :
    verifier.Vouches now method path body headers token ts := by
  obtain ⟨text, htext, hsent, htime, hsignature⟩ := signedHeaders_eq_ok hsigned
  have hts : ts = signedAt := by
    rw [htime, Decimal.int_str htext] at hparsed
    exact (Option.some.inj hparsed).symm
  subst hts
  refine ⟨hsent ▸ hnode, hsent ▸ hknown, htoken, hparsed, hfresh, text, htext, ?_⟩
  rw [hsignature, hsent]

theorem signRequest_eq_ok {st : PeerAuthState} {now : Int} {method path : String}
    {body : List UInt8} {timestamp : Option Int} {headers : Headers}
    (h : st.signRequest now method path body timestamp = .ok headers) (hne : headers ≠ []) :
    st.localNodeId ≠ "" ∧ st.localToken ≠ "" ∧ ∃ ts,
      signedHeaders st.localToken st.localNodeId ts method path body = .ok headers := by
  unfold signRequest at h
  split at h
  · cases h
    exact absurd rfl hne
  · rename_i hconfigured
    unfold isConfigured at hconfigured
    rw [Bool.not_eq_false, Bool.and_eq_true, decide_eq_true_eq, decide_eq_true_eq] at hconfigured
    exact ⟨hconfigured.2, hconfigured.1, _, h⟩

end PeerAuthState

section Example

local instance asciiPeers : Unicode := Unicode.ascii

/-- The digest of no bytes. -/
def digestOfNothing : List UInt8 :=
  [227, 176, 196, 66, 152, 252, 28, 20, 154, 251, 244, 200, 153, 111, 185, 36, 39, 174, 65, 228,
   100, 155, 147, 76, 164, 149, 153, 27, 120, 82, 184, 85]

/-- The code of the request below under its token. -/
def macOfListing : List UInt8 :=
  [219, 101, 78, 164, 107, 119, 219, 106, 49, 43, 135, 25, 74, 6, 36, 166, 43, 212, 85, 79, 57,
   113, 203, 225, 190, 10, 8, 64, 4, 5, 231, 173]

/-- The digests of one request, and others that are told apart from them. -/
local instance listingDigests : Sha256 where
  digest body := if body = [] then digestOfNothing else 0 :: body
  mac key message :=
    if key = encode "secret" ∧ message = encode ("node-a:100:GET:/api/v1/tasks:" ++
        hex digestOfNothing) then macOfListing
    else 0 :: (List.replicate key.length 1 ++ 0 :: (key ++ message))
  mac_ne_nil key message := by
    split
    · decide
    · exact List.cons_ne_nil _ _

theorem listingDigests_injective : Sha256.Injective where
  digest := by
    intro a b h
    change (if a = [] then digestOfNothing else 0 :: a) =
      if b = [] then digestOfNothing else 0 :: b at h
    split at h
    · rename_i ha
      split at h
      · rename_i hb
        rw [ha, hb]
      · cases h
    · split at h
      · cases h
      · exact (List.cons.inj h).2
  mac := by
    intro key key' message message' h
    change (if _ then macOfListing else _) = (if _ then macOfListing else _) at h
    split at h
    · rename_i hhere
      split at h
      · rename_i hthere
        exact ⟨hhere.1.trans hthere.1.symm, hhere.2.trans hthere.2.symm⟩
      · cases h
    · split at h
      · cases h
      · have hones : ∀ k : List UInt8, (0 : UInt8) ∉ List.replicate k.length 1 :=
          fun k hk => absurd (List.eq_of_mem_replicate hk) (by decide)
        obtain ⟨hlength, hrest⟩ :=
          append_cons_inj (hones key) (hones key') (List.cons.inj h).2
        have hlen : key.length = key'.length := by
          simpa using congrArg List.length hlength
        exact List.append_inj hrest hlen

end Example

end HermesCluster

import WeatherTerminal.Http.Model.Url
import WeatherTerminal.Http.Search
/-!
# HTTP — addresses and their parts

A URL taken apart is the URL it was put together from
(`resolveAddress_text`): the host, in brackets where it is an IPv6 address,
the port, or that of the protocol, and the request, which is `/` where the
URL names none. The port has to be of five bytes at most for its array.
-/

namespace WeatherTerminal

namespace Http

/-- A host as a URL names it: a name, or an address of IPv6 that stands in
brackets. -/
inductive Host
  | name (bs : List UInt8) (ne : bs ≠ []) (start : bs.head? ≠ some 91) (no_slash : 47 ∉ bs)
      (no_colon : 58 ∉ bs)
  | ipv6 (bs : List UInt8) (ne : bs ≠ []) (no_slash : 47 ∉ bs) (no_bracket : 93 ∉ bs)

/-- The address of the host, without the brackets around it. -/
def Host.bytes : Host → List UInt8
  | .name bs _ _ _ _ => bs
  | .ipv6 bs _ _ _ => bs

/-- The host as it stands in a URL, an address of IPv6 in brackets. -/
def Host.text : Host → List UInt8
  | .name bs _ _ _ _ => bs
  | .ipv6 bs _ _ _ => 91 :: (bs ++ [93])

/-- The parts of a URL: its protocol, its host, and a port and a path that may
be missing. -/
structure Url where
  secure : Bool
  host : Host
  port : Option (List UInt8)
  /-- What follows the slash behind the host. -/
  path : Option (List UInt8)
  port_no_slash : ∀ p ∈ port, 47 ∉ p

namespace Url

/-- The protocol as a URL starts with it. -/
def protocol (u : Url) : List UInt8 := if u.secure then utf8 "https://" else utf8 "http://"

/-- The port as it stands behind the host, with its colon. -/
def portText (u : Url) : List UInt8 := u.port.elim [] (58 :: ·)

/-- The path as it stands behind host and port, with its slash. -/
def pathText (u : Url) : List UInt8 := u.path.elim [] (47 :: ·)

/-- The text of a URL: protocol, host, port and path. -/
def text (u : Url) : List UInt8 := u.protocol ++ (u.host.text ++ (u.portText ++ u.pathText))

/-- The request of a URL: a slash and its path. -/
def request (u : Url) : List UInt8 := 47 :: u.path.getD []

theorem length_https_le : (utf8 "443").length ≤ 6 := by decide

theorem length_http_le : (utf8 "80").length ≤ 6 := by decide

/-- The port the protocol stands for, 443 or 80, as the array is initialised
with it. -/
def defaultPort (u : Url) : Block 6 :=
  if u.secure then portInit (utf8 "443") length_https_le else portInit (utf8 "80") length_http_le

/-- The array of the port: the default one, with the port of the URL copied
over it where there is one. -/
def portStr (u : Url) : Block 6 := u.port.elim u.defaultPort (u.defaultPort.strcpy 0 ·)

end Url

/-! ## Copying the port -/

/-- The copy of a port that a path follows is a `strcpy` as well. -/
theorem strncpy_store_eq_strcpy {n : ℕ} (b : Block n) (port rest : List UInt8) :
    (b.strncpy 0 (port ++ rest) port.length).store port.length 0 = b.strcpy 0 port := by
  have happend : ∀ (b : Block n) (i : ℕ) (vs : List UInt8) (v : UInt8),
      (b.storeAll i vs).store (i + vs.length) v = b.storeAll i (vs ++ [v]) := by
    intro b i vs v
    induction vs generalizing b i with
    | nil => rfl
    | cons w vs ih =>
        rw [List.cons_append, Block.storeAll, Block.storeAll, ← ih, List.length_cons]
        congr 1
        omega
  have htake : (port ++ rest ++ List.replicate port.length 0).take port.length = port := by
    rw [List.append_assoc, List.take_left]
  rw [Block.strncpy, htake, Block.strcpy, ← happend, Nat.zero_add]

variable {u : Url}

/-! ## Finding the parts -/

/-- A host without a slash has none with its port behind it either. -/
theorem notMem_portText {host : List UInt8} (hhost : 47 ∉ host) : 47 ∉ host ++ u.portText := by
  intro h
  rcases List.mem_append.mp h with h | h
  · exact hhost h
  · rcases hp : u.port with - | p
    · rw [Url.portText, hp] at h
      cases h
    · rw [Url.portText, hp] at h
      rcases List.mem_cons.mp h with h | h
      · exact absurd h (by decide)
      · exact u.port_no_slash p hp h

/-- The first slash behind the protocol is the one of the path, if there is a
path. -/
theorem strstr_slash {host : List UInt8} (hhost : 47 ∉ host) :
    strstr [47] (host ++ (u.portText ++ u.pathText)) =
      u.path.map fun _ => (host ++ u.portText).length := by
  have hfront := notMem_portText (u := u) hhost
  rw [← List.append_assoc, Url.pathText]
  rcases u.path with - | p
  · rw [Option.elim_none, List.append_nil, strstr_eq_none hfront]
    rfl
  · rw [Option.elim_some, strstr_append_cons hfront]
    rfl

/-- The colon of the port; one in the path is behind the slash. -/
theorem strstr_port {host : List UInt8} {len : ℕ} (hhost : 47 ∉ host) (hlen : len ≤ host.length)
    (hcolon : 58 ∉ host.drop len) :
    ((strstr [58] ((host ++ (u.portText ++ u.pathText)).drop len)).map (len + ·)).filter
        (fun q => (strstr [47] (host ++ (u.portText ++ u.pathText))).all (q < ·)) =
      u.port.map fun _ => host.length := by
  have hdrop : (host ++ (u.portText ++ u.pathText)).drop len =
      host.drop len ++ (u.portText ++ u.pathText) := List.drop_append_of_le_length hlen
  have hsum : len + (host.drop len).length = host.length := by
    rw [List.length_drop]
    omega
  rw [strstr_slash hhost, hdrop, strstr_append _ hcolon, Option.map_map]
  rcases hport : u.port with - | p
  · have hnil : u.portText = [] := by rw [Url.portText, hport]; rfl
    rw [hnil, List.nil_append, List.append_nil, Option.map_none, Option.filter_eq_none_iff]
    intro q hq
    rcases hpath : u.path with - | path
    · rw [Url.pathText, hpath] at hq
      cases hq
    · -- the slash comes first
      rw [Url.pathText, hpath, Option.elim_some] at hq
      obtain ⟨k, hk, rfl⟩ := Option.map_eq_some_iff.mp hq
      simp only [Option.map_some, Option.all_some, Function.comp_apply, decide_eq_true_eq]
      omega
  · have htext : u.portText = 58 :: p := by rw [Url.portText, hport]; rfl
    have hfirst : strstr [58] (u.portText ++ u.pathText) = some 0 := by
      rw [htext, List.cons_append]
      simp [strstr]
    rw [hfirst]
    simp only [Option.map_some, Function.comp_apply, Nat.add_zero, hsum]
    refine Option.filter_eq_some_iff.mpr ⟨rfl, ?_⟩
    cases u.path with
    | none => rfl
    | some path => simp [htext]

theorem portText_eq {p : List UInt8} (hp : u.port = some p) : u.portText = 58 :: p := by
  rw [Url.portText, hp]
  rfl

/-- Without a port nothing of it stands in the URL. -/
theorem portText_nil (hp : u.port = none) : u.portText = [] := by
  rw [Url.portText, hp]
  rfl

/-- Without a path nothing of it stands in the URL. -/
theorem pathText_nil (hp : u.path = none) : u.pathText = [] := by
  rw [Url.pathText, hp]
  rfl

/-- The host ends at the port, or at the path, or with the URL. -/
theorem host_end (u : Url) (host : List UInt8) :
    (u.port.map fun _ => host.length).getD ((u.path.map fun _ => (host ++ u.portText).length).getD
      (host ++ (u.portText ++ u.pathText)).length) = host.length := by
  rcases hp : u.port with - | p
  · rcases hpath : u.path with - | path
    · simp [portText_nil hp, pathText_nil hpath]
    · simp [portText_nil hp]
  · rfl

/-- The request that is taken from the slash on is the one of the URL. -/
theorem requestAt_eq (u : Url) (host : List UInt8) :
    requestAt (host ++ (u.portText ++ u.pathText))
      (u.path.map fun _ => (host ++ u.portText).length) = u.request := by
  rcases hpath : u.path with - | path
  · rw [Url.request, hpath]
    rfl
  · rw [Option.map_some, requestAt, ← List.append_assoc, List.drop_left, Url.pathText, Url.request,
      hpath]
    rfl

/-- The port that is copied from the URL is the one of its array. -/
theorem copyPort_eq (u : Url) (host : List UInt8) :
    copyPort (host ++ (u.portText ++ u.pathText)) u.defaultPort (u.port.map fun _ => host.length)
      (u.path.map fun _ => (host ++ u.portText).length) = u.portStr := by
  rcases hp : u.port with - | p
  · rw [Url.portStr, hp]
    rfl
  · have hdrop : (host ++ (u.portText ++ u.pathText)).drop (host.length + 1) =
        p ++ u.pathText := by
      rw [← List.drop_drop, List.drop_left, portText_eq hp]
      rfl
    rw [Url.portStr, hp]
    rcases hpath : u.path with - | path
    · rw [Option.map_some, Option.map_none, copyPort, hdrop, pathText_nil hpath, List.append_nil,
        Option.elim_some]
    · have hwidth : (host ++ u.portText).length - host.length - 1 = p.length := by
        rw [List.length_append, portText_eq hp, List.length_cons]
        omega
      simp only [Option.map_some, copyPort, hdrop, hwidth, Option.elim_some,
        strncpy_store_eq_strcpy]

/-- **The parts of a URL are found** behind its host: the host that ends
there, the port and the request. -/
theorem resolveParts_eq {host : List UInt8} {len urlLen : ℕ} (hhost : 47 ∉ host)
    (hlen : len ≤ host.length) (hcolon : 58 ∉ host.drop len)
    (hpos : 0 < if len = 0 then host.length else len) (hurl : host.length ≤ urlLen) :
    resolveParts urlLen (host ++ (u.portText ++ u.pathText)) len u.defaultPort =
      some ⟨host.take (if len = 0 then host.length else len), u.portStr, u.request⟩ := by
  have hle : (if len = 0 then host.length else len) ≤ host.length := by
    split <;> omega
  rw [resolveParts, strstr_port hhost hlen hcolon, strstr_slash hhost, host_end]
  simp only [requestAt_eq, copyPort_eq]
  rw [if_neg (by omega), List.take_append_of_le_length hle]

/-- What stands behind the protocol is resolved, for both kinds of hosts. -/
theorem resolveHost_eq (u : Url) {urlLen : ℕ} (hurl : u.host.text.length ≤ urlLen) :
    resolveHost urlLen (u.host.text ++ (u.portText ++ u.pathText)) u.defaultPort =
      some ⟨u.host.bytes, u.portStr, u.request⟩ := by
  rcases hhost : u.host with ⟨bs, hne, hstart, hslash, hcolon⟩ | ⟨bs, hne, hslash, hbracket⟩
  · have hlen : 0 < bs.length := List.length_pos_iff.mpr hne
    have hfirst : (bs ++ (u.portText ++ u.pathText)).head? = bs.head? := by
      rw [List.head?_append_of_ne_nil bs hne]
    rw [hhost] at hurl
    show resolveHost urlLen (bs ++ (u.portText ++ u.pathText)) u.defaultPort = _
    rw [resolveHost, hfirst, if_neg hstart,
      resolveParts_eq hslash (Nat.zero_le _) hcolon (by rwa [if_pos rfl]) hurl, if_pos rfl,
      List.take_length]
    rfl
  · have hlen : 0 < bs.length := List.length_pos_iff.mpr hne
    have hclose : (bs ++ [93]).length ≤ urlLen := by
      rw [hhost] at hurl
      exact (Nat.le_succ _).trans hurl
    have hfound : strstr [93] (bs ++ [93] ++ (u.portText ++ u.pathText)) = some bs.length := by
      rw [List.append_assoc]
      exact strstr_append_cons hbracket
    have hdrop : (bs ++ [93]).drop bs.length = [93] := List.drop_left
    show resolveHost urlLen (91 :: (bs ++ [93]) ++ (u.portText ++ u.pathText)) u.defaultPort = _
    rw [List.cons_append, resolveHost, if_pos List.head?_cons, List.tail_cons]
    simp only [hfound]
    rw [resolveParts_eq (by simp [hslash]) (by simp) (by rw [hdrop]; decide)
      (by rw [if_neg (by omega)]; exact hlen) hclose, if_neg (by omega), List.take_left]
    rfl

/-- **The text of a URL is resolved to its parts**, whatever its protocol. -/
theorem resolveAddress_eq (u : Url) :
    resolveAddress u.text = some ⟨u.host.bytes, u.portStr, u.request⟩ := by
  have hlen : u.host.text.length ≤ u.text.length := by
    rw [Url.text, List.length_append, List.length_append]
    omega
  have hhost := resolveHost_eq u hlen
  rw [Url.defaultPort] at hhost
  rw [resolveAddress]
  by_cases hsecure : u.secure = true
  · rw [if_pos hsecure] at hhost
    have hplain : (utf8 "http://").isPrefixOf u.text = false := by
      rw [Url.text, Url.protocol, if_pos hsecure]
      rfl
    have hprotocol : (utf8 "https://").isPrefixOf u.text = true := by
      rw [Url.text, Url.protocol, if_pos hsecure]
      rfl
    have hrest : u.text.drop 8 = u.host.text ++ (u.portText ++ u.pathText) := by
      rw [Url.text, Url.protocol, if_pos hsecure]
      rfl
    rw [hplain, hprotocol, if_neg Bool.false_ne_true, if_pos rfl, hrest, hhost]
  · rw [if_neg hsecure] at hhost
    have hprotocol : (utf8 "http://").isPrefixOf u.text = true := by
      rw [Url.text, Url.protocol, if_neg hsecure]
      rfl
    have hrest : u.text.drop 7 = u.host.text ++ (u.portText ++ u.pathText) := by
      rw [Url.text, Url.protocol, if_neg hsecure]
      rfl
    rw [hprotocol, if_pos rfl, hrest, hhost]

/-- **A URL is taken apart into the parts it was put together from.** The
port is that of the URL, in an array it overflows with more than five
bytes, or that of the protocol. -/
theorem resolveAddress_text (u : Url) :
    ∃ a, resolveAddress u.text = some a ∧ a.host = u.host.bytes ∧ a.request = u.request ∧
      (∀ port ∈ u.port, a.portStr.overrun = decide (5 < port.length)) ∧
      (∀ port ∈ u.port, 0 ∉ port → port.length ≤ 5 → a.portStr.cstr 0 = port) ∧
      (u.port = none → a.portStr = u.defaultPort) := by
  have hclean : u.defaultPort.overrun = false := by
    rw [Url.defaultPort]
    split <;> rfl
  refine ⟨_, resolveAddress_eq u, rfl, rfl, ?_, ?_, ?_⟩
  · intro port hport
    show u.portStr.overrun = _
    rw [Url.portStr, hport, Option.elim_some, Block.strcpy_overrun, hclean, Bool.false_or]
    congr 1
    refine propext ?_
    omega
  · intro port hport hzero hshort
    show u.portStr.cstr 0 = port
    rw [Url.portStr, hport, Option.elim_some]
    exact Block.cstr_strcpy hzero (by omega)
  · intro hport
    show u.portStr = _
    rw [Url.portStr, hport]
    rfl

end Http

end WeatherTerminal

import TelemtPanel.Library.NetText

/-!
# The address of a client

A trusted proxy appends the address of its peer to the header lines it has received.  The panel
walks over the entries from the right and takes the first one that is not trusted, but it only
reads the first header line.  Text is a list of characters; bytes that are no UTF-8 stand as
replacement characters, which no address contains.
-/

namespace TelemtPanel.Auth

open Library

section Networks

/-- Bits of a number, the most significant one first. -/
def bitsOf (width value : ℕ) : List Bool :=
  (List.range width).map fun place => value.testBit (width - 1 - place)

def addrBits : Addr → List Bool
  | .v4 octets => octets.val.flatMap fun octet => bitsOf 8 octet.toNat
  | .v6 groups _ => groups.val.flatMap fun group => bitsOf 16 group.toNat

/-- `netip.Prefix` -/
structure Prefix where
  addr : Addr
  bits : ℕ

/-- An address with a zone is in no network. -/
def Prefix.contains (net : Prefix) (addr : Addr) : Bool :=
  addr.zone.isEmpty && net.addr.is4 == addr.is4 &&
    decide (net.bits ≤ (addrBits net.addr).length) &&
      (addrBits net.addr).take net.bits == (addrBits addr).take net.bits

def addrInPrefixes (addr : Addr) (prefixes : List Prefix) : Bool :=
  prefixes.any fun net => net.contains addr.unmap

end Networks

section Text

/-- `net.SplitHostPort` -/
def splitHostPort (hostport : List Char) : Option (List Char × List Char) :=
  if ':' ∉ hostport then none
  else
    let port := (hostport.reverse.takeWhile (· != ':')).reverse
    let lastColon := hostport.length - port.length - 1
    if hostport.head? = some '[' then
      let host := hostport.tail.takeWhile (· != ']')
      if ']' ∉ hostport then none
      else if host.length + 2 ≠ lastColon then none
      else if '[' ∈ hostport.tail ∨ ']' ∈ hostport.drop (host.length + 2) then none
      else some (host, port)
    else
      let host := hostport.take lastColon
      if ':' ∈ host ∨ '[' ∈ hostport ∨ ']' ∈ hostport then none else some (host, port)

/-- `net.JoinHostPort`, by which the server writes the address of its peer. -/
def joinHostPort (host port : List Char) : List Char :=
  if ':' ∈ host then '[' :: host ++ ']' :: ':' :: port else host ++ ':' :: port

/-- `unicode.IsSpace` -/
def isSpace (c : Char) : Bool :=
  decide (9 ≤ c.toNat ∧ c.toNat ≤ 13) || decide (0x2000 ≤ c.toNat ∧ c.toNat ≤ 0x200a) ||
    decide (c.toNat ∈ [0x20, 0x85, 0xa0, 0x1680, 0x2028, 0x2029, 0x202f, 0x205f, 0x3000])

/-- `strings.TrimSpace` -/
def trimSpace (text : List Char) : List Char :=
  ((text.dropWhile isSpace).reverse.dropWhile isSpace).reverse

def parseAddr (text : List Char) : Option Addr := Addr.parse (String.ofList text)

end Text

/-- `forwardedFor` are the lines of the header X-Forwarded-For. -/
structure Request where
  remoteAddr : List Char
  forwardedFor : List (List Char)

section ClientIP

variable (r : Request) (trusted : List Prefix)

/-- Host of the peer, or its whole text if that is not split. -/
def peerHost : List Char :=
  match splitHostPort r.remoteAddr with
  | some (host, _) => host
  | none => r.remoteAddr

def peerAddr : Option Addr := (parseAddr (peerHost r)).map Addr.unmap

def peerTrusted : Bool :=
  if trusted = [] then false
  else
    match peerAddr r with
    | some peer => addrInPrefixes peer trusted
    | none => false

/-- `r.Header.Get`: the first line, or nothing. -/
def headerGet (lines : List (List Char)) : List Char := lines.head?.getD []

/-- The loop over the entries, from the last one on. -/
def rightmost : List (List Char) → Option Addr
  | [] => none
  | part :: parts =>
      match parseAddr (trimSpace part) with
      | none => none
      | some addr =>
          if addrInPrefixes addr.unmap trusted then rightmost parts else some addr.unmap

def clientIP : String :=
  match peerAddr r with
  | none => String.ofList (peerHost r)
  | some peer =>
      if peerTrusted r trusted = false then peer.string
      else
        let fwd := headerGet r.forwardedFor
        if fwd = [] then peer.string
        else
          match rightmost trusted (fwd.splitOn ',').reverse with
          | some addr => addr.string
          | none => peer.string

end ClientIP

section Path

/-- A text in which the address of a peer is written. -/
structure PlainText (addr : Addr) where
  text : List Char
  reads : (parseAddr text).map Addr.unmap = some addr
  noComma : ',' ∉ text
  noSpace : ∀ c ∈ text, isSpace c = false
  noBracket : '[' ∉ text ∧ ']' ∉ text

/-- A proxy appends an entry to the last line, or as a new line. -/
inductive Append where
  | lastLine
  | newLine
deriving DecidableEq

def Append.lines (append : Append) (lines : List (List Char)) (entry : List Char) :
    List (List Char) :=
  match append with
  | .newLine => lines ++ [entry]
  | .lastLine =>
      match lines.getLast? with
      | none => [entry]
      | some last => lines.dropLast ++ [last ++ [',', ' '] ++ entry]

/-- A proxy, with the text in which the next hop writes its address. -/
structure Proxy where
  addr : Addr
  plain : PlainText addr
  append : Append

/-- The way of a request: a client outside of the trusted networks and then trusted proxies. -/
structure Path (trusted : List Prefix) where
  client : Addr
  plain : PlainText client
  untrusted : addrInPrefixes client trusted = false
  proxies : List Proxy
  proxiesTrusted : ∀ proxy ∈ proxies, addrInPrefixes proxy.addr trusted = true
  port : List Char
  digits : ∀ c ∈ port, c.isDigit = true

/-- The lines and the peer that arrive behind some proxies. -/
def arrive (lines : List (List Char)) (peer : List Char) : List Proxy →
    List (List Char) × List Char
  | [] => (lines, peer)
  | proxy :: proxies => arrive (proxy.append.lines lines peer) proxy.plain.text proxies

/-- The request that arrives at the panel when the client sends some lines. -/
def Path.request {trusted : List Prefix} (path : Path trusted) (lines : List (List Char)) :
    Request where
  remoteAddr := joinHostPort (arrive lines path.plain.text path.proxies).2 path.port
  forwardedFor := (arrive lines path.plain.text path.proxies).1

end Path

section Peer

theorem port_of_lastColon {front port : List Char} (noColon : ':' ∉ port) :
    ((front ++ ':' :: port).reverse.takeWhile (· != ':')).reverse = port := by
  have all : ∀ c ∈ port.reverse, (c != ':') = true := by
    intro c mem
    exact bne_iff_ne.mpr fun same => noColon (same ▸ List.mem_reverse.mp mem)
  rw [List.reverse_append, List.reverse_cons, List.append_assoc, List.takeWhile_append_of_pos all]
  simp

theorem splitHostPort_bracketed {host port : List Char} (noBracket : '[' ∉ host ∧ ']' ∉ host)
    (noColon : ':' ∉ port) (noOpening : '[' ∉ port) (noClosing : ']' ∉ port) :
    splitHostPort ('[' :: (host ++ ']' :: ':' :: port)) = some (host, port) := by
  have last := @port_of_lastColon ('[' :: (host ++ [']'])) port noColon
  have shape : '[' :: (host ++ [']']) ++ ':' :: port = '[' :: (host ++ ']' :: ':' :: port) := by
    simp
  rw [shape] at last
  have inner : (host ++ ']' :: ':' :: port).takeWhile (· != ']') = host := by
    rw [List.takeWhile_append_of_pos]
    · simp
    · intro c mem
      exact bne_iff_ne.mpr fun same => noBracket.2 (same ▸ mem)
  have place : ('[' :: (host ++ ']' :: ':' :: port)).length - port.length - 1 =
      host.length + 2 := by
    simp only [List.length_append, List.length_cons]
    omega
  have behind : ('[' :: (host ++ ']' :: ':' :: port)).drop (host.length + 2) = ':' :: port := by
    rw [List.drop_succ_cons, List.drop_append]
    simp
  unfold splitHostPort
  rw [if_neg (by simp)]
  simp only [last, place, List.head?_cons, if_true, List.tail_cons, inner, behind]
  rw [if_neg (by simp), if_neg (by simp), if_neg]
  simp [noBracket.1, noOpening, noClosing]

theorem splitHostPort_plain {host port : List Char} (noBracket : '[' ∉ host ∧ ']' ∉ host)
    (plain : ':' ∉ host) (noColon : ':' ∉ port) (noOpening : '[' ∉ port) (noClosing : ']' ∉ port) :
    splitHostPort (host ++ ':' :: port) = some (host, port) := by
  have last := @port_of_lastColon host port noColon
  have place : (host ++ ':' :: port).length - port.length - 1 = host.length := by
    simp only [List.length_append, List.length_cons]
    omega
  have notOpening : (host ++ ':' :: port).head? ≠ some '[' := by
    intro same
    cases host with
    | nil => simp at same
    | cons c host =>
        rw [List.cons_append, List.head?_cons] at same
        exact noBracket.1 (Option.some_inj.mp same ▸ List.mem_cons_self)
  unfold splitHostPort
  rw [if_neg (by simp)]
  simp only [last, place, if_neg notOpening, List.take_left']
  rw [if_neg]
  simp [plain, noBracket.1, noBracket.2, noOpening, noClosing]

/-- What the server has joined is split again. -/
theorem splitHostPort_joinHostPort {host port : List Char} (noBracket : '[' ∉ host ∧ ']' ∉ host)
    (digits : ∀ c ∈ port, c.isDigit = true) :
    splitHostPort (joinHostPort host port) = some (host, port) := by
  have absent : ∀ c : Char, c.isDigit = false → c ∉ port := by
    intro c noDigit mem
    rw [digits c mem] at noDigit
    cases noDigit
  unfold joinHostPort
  split
  · exact splitHostPort_bracketed noBracket (absent ':' rfl) (absent '[' rfl) (absent ']' rfl)
  · rename_i plain
    exact splitHostPort_plain noBracket plain (absent ':' rfl) (absent '[' rfl) (absent ']' rfl)

theorem peerAddr_join {addr : Addr} (plain : PlainText addr) {port : List Char}
    (digits : ∀ c ∈ port, c.isDigit = true) (lines : List (List Char)) :
    peerAddr { remoteAddr := joinHostPort plain.text port, forwardedFor := lines } = some addr := by
  rw [peerAddr, peerHost, splitHostPort_joinHostPort plain.noBracket digits]
  exact plain.reads

theorem peerTrusted_join {trusted : List Prefix} {addr : Addr} (plain : PlainText addr)
    {port : List Char} (digits : ∀ c ∈ port, c.isDigit = true) (lines : List (List Char)) :
    peerTrusted { remoteAddr := joinHostPort plain.text port, forwardedFor := lines } trusted =
      addrInPrefixes addr trusted := by
  unfold peerTrusted
  split
  · rename_i none
    rw [none]
    rfl
  · rw [peerAddr_join plain digits]

end Peer

section Entries

variable {trusted : List Prefix}

/-- The rightmost entry of a line that is not trusted is a well-formed address, and this one. -/
def NamesLast (trusted : List Prefix) (addr : Addr) (line : List Char) : Prop :=
  ∃ before entry after, line.splitOn ',' = before ++ entry :: after ∧
    (parseAddr (trimSpace entry)).map Addr.unmap = some addr ∧
    addrInPrefixes addr trusted = false ∧
    ∀ other ∈ after, ∃ proxy, (parseAddr (trimSpace other)).map Addr.unmap = some proxy ∧
      addrInPrefixes proxy trusted = true

theorem rightmost_eq_some_iff {parts : List (List Char)} {addr : Addr} :
    rightmost trusted parts = some addr ↔ ∃ after entry before, parts = after ++ entry :: before ∧
      (parseAddr (trimSpace entry)).map Addr.unmap = some addr ∧
      addrInPrefixes addr trusted = false ∧
      ∀ other ∈ after, ∃ proxy, (parseAddr (trimSpace other)).map Addr.unmap = some proxy ∧
        addrInPrefixes proxy trusted = true := by
  induction parts with
  | nil =>
      refine iff_of_false (fun impossible => by cases impossible) ?_
      rintro ⟨after, entry, before, impossible, -⟩
      simp at impossible
  | cons part parts ih =>
      constructor
      · intro found
        rw [rightmost] at found
        split at found
        · cases found
        · rename_i parsed isParsed
          split at found
          · rename_i isTrusted
            rcases ih.mp found with ⟨after, entry, before, split, reads, untrusted, proxies⟩
            refine ⟨part :: after, entry, before, by rw [split]; rfl, reads, untrusted, ?_⟩
            intro other mem
            rcases List.mem_cons.mp mem with rfl | mem
            · exact ⟨parsed.unmap, by rw [isParsed]; rfl, isTrusted⟩
            · exact proxies other mem
          · rename_i untrusted
            cases found
            refine ⟨[], part, parts, rfl, by rw [isParsed]; rfl, ?_, by simp⟩
            exact Bool.eq_false_iff.mpr untrusted
      · rintro ⟨after, entry, before, split, reads, untrusted, proxies⟩
        cases after with
        | nil =>
            rw [List.nil_append] at split
            rcases List.cons.inj split with ⟨rfl, rfl⟩
            rcases Option.map_eq_some_iff.mp reads with ⟨parsed, isParsed, rfl⟩
            rw [rightmost, isParsed]
            simp only [untrusted, Bool.false_eq_true, if_false]
        | cons other after =>
            rw [List.cons_append] at split
            rcases List.cons.inj split with ⟨rfl, rfl⟩
            rcases proxies part List.mem_cons_self with ⟨proxy, isProxy, isTrusted⟩
            rcases Option.map_eq_some_iff.mp isProxy with ⟨parsed, isParsed, rfl⟩
            rw [rightmost, isParsed]
            simp only [isTrusted, if_true]
            refine ih.mpr ⟨after, entry, before, rfl, reads, untrusted, ?_⟩
            exact fun other mem => proxies other (List.mem_cons_of_mem _ mem)

theorem rightmost_line_iff {line : List Char} {addr : Addr} :
    rightmost trusted (line.splitOn ',').reverse = some addr ↔ NamesLast trusted addr line := by
  rw [rightmost_eq_some_iff]
  constructor
  · rintro ⟨after, entry, before, split, reads, untrusted, proxies⟩
    refine ⟨before.reverse, entry, after.reverse, ?_, reads, untrusted, ?_⟩
    · rw [← List.reverse_reverse (line.splitOn ','), split]
      simp
    · exact fun other mem => proxies other (List.mem_reverse.mp mem)
  · rintro ⟨before, entry, after, split, reads, untrusted, proxies⟩
    refine ⟨after.reverse, entry, before.reverse, ?_, reads, untrusted, ?_⟩
    · rw [split]
      simp
    · exact fun other mem => proxies other (List.mem_reverse.mp mem)

theorem parseAddr_trimSpace {addr : Addr} (plain : PlainText addr) :
    (parseAddr (trimSpace plain.text)).map Addr.unmap = some addr ∧
      (parseAddr (trimSpace (' ' :: plain.text))).map Addr.unmap = some addr := by
  have keep : ∀ text : List Char, (∀ c ∈ text, isSpace c = false) →
      text.dropWhile isSpace = text := by
    intro text noSpace
    cases text with
    | nil => rfl
    | cons c rest => rw [List.dropWhile_cons_of_neg (by simp [noSpace c List.mem_cons_self])]
  have reversed : plain.text.reverse.dropWhile isSpace = plain.text.reverse :=
    keep _ fun c mem => plain.noSpace c (List.mem_reverse.mp mem)
  have trimmed : trimSpace plain.text = plain.text := by
    rw [trimSpace, keep _ plain.noSpace, reversed, List.reverse_reverse]
  have spaced : trimSpace (' ' :: plain.text) = plain.text := by
    rw [trimSpace, List.dropWhile_cons_of_pos rfl, keep _ plain.noSpace, reversed,
      List.reverse_reverse]
  rw [trimmed, spaced]
  exact ⟨plain.reads, plain.reads⟩

/-- Entries of a line to which an address has been appended. -/
theorem splitOn_append {addr : Addr} (plain : PlainText addr) (line : List Char) :
    (line ++ [',', ' '] ++ plain.text).splitOn ',' = line.splitOn ',' ++ [' ' :: plain.text] := by
  have absent : ',' ∉ ' ' :: plain.text := by
    rw [List.mem_cons, not_or]
    exact ⟨by decide, plain.noComma⟩
  rw [List.append_assoc, List.cons_append, List.cons_append, List.nil_append,
    List.splitOn_append_cons_self, List.splitOn_eq_singleton absent]

theorem namesLast_append_client {addr : Addr} (plain : PlainText addr)
    (untrusted : addrInPrefixes addr trusted = false) (line : List Char) :
    NamesLast trusted addr (line ++ [',', ' '] ++ plain.text) := by
  refine ⟨line.splitOn ',', ' ' :: plain.text, [], splitOn_append plain line, ?_, untrusted, ?_⟩
  · exact (parseAddr_trimSpace plain).2
  · simp

theorem namesLast_client {addr : Addr} (plain : PlainText addr)
    (untrusted : addrInPrefixes addr trusted = false) : NamesLast trusted addr plain.text := by
  refine ⟨[], plain.text, [], ?_, (parseAddr_trimSpace plain).1, untrusted, by simp⟩
  exact List.splitOn_eq_singleton plain.noComma

/-- A trusted address behind the others changes nothing. -/
theorem namesLast_append_proxy {addr proxy : Addr} (plain : PlainText proxy)
    (isTrusted : addrInPrefixes proxy trusted = true) (line : List Char) :
    NamesLast trusted addr (line ++ [',', ' '] ++ plain.text) ↔ NamesLast trusted addr line := by
  unfold NamesLast
  rw [splitOn_append plain line]
  constructor
  · rintro ⟨before, entry, after, split, reads, untrusted, proxies⟩
    rcases List.eq_nil_or_concat after with rfl | ⟨middle, last, rfl⟩
    · have ends : line.splitOn ',' = before ∧ [' ' :: plain.text] = [entry] :=
        List.append_inj' split rfl
      have same := List.singleton_inj.mp ends.2
      rw [← same, (parseAddr_trimSpace plain).2] at reads
      rw [Option.some_inj.mp reads, untrusted] at isTrusted
      cases isTrusted
    · rw [List.concat_eq_append, ← List.cons_append, ← List.append_assoc] at split
      have ends : line.splitOn ',' = before ++ entry :: middle ∧ _ := List.append_inj' split rfl
      refine ⟨before, entry, middle, ends.1, reads, untrusted, ?_⟩
      intro other mem
      refine proxies other ?_
      rw [List.concat_eq_append]
      exact List.mem_append_left _ mem
  · rintro ⟨before, entry, after, split, reads, untrusted, proxies⟩
    refine ⟨before, entry, after ++ [' ' :: plain.text], ?_, reads, untrusted, ?_⟩
    · rw [split]
      simp
    · intro other mem
      rcases List.mem_append.mp mem with earlier | last
      · exact proxies other earlier
      · rw [List.mem_singleton.mp last]
        exact ⟨proxy, (parseAddr_trimSpace plain).2, isTrusted⟩

/-- The first header line names an address. -/
def HeadNames (trusted : List Prefix) (addr : Addr) (lines : List (List Char)) : Prop :=
  ∃ line ∈ lines.head?, NamesLast trusted addr line

theorem headNames_cons {addr : Addr} {line : List Char} {lines : List (List Char)} :
    HeadNames trusted addr (line :: lines) ↔ NamesLast trusted addr line := by
  simp [HeadNames]

theorem lines_cons_cons (append : Append) (first second : List Char) (rest : List (List Char))
    (entry : List Char) : ∃ more, append.lines (first :: second :: rest) entry = first :: more := by
  cases append with
  | newLine => exact ⟨second :: rest ++ [entry], rfl⟩
  | lastLine =>
      have isLast : (first :: second :: rest).getLast? = (second :: rest).getLast? :=
        List.getLast?_cons_cons
      unfold Append.lines
      rw [isLast]
      cases found : (second :: rest).getLast? with
      | none => exact absurd (List.getLast?_eq_none_iff.mp found) (List.cons_ne_nil _ _)
      | some last => exact ⟨(second :: rest).dropLast ++ [last ++ [',', ' '] ++ entry], rfl⟩

theorem lines_ne_nil (append : Append) (lines : List (List Char)) (entry : List Char) :
    append.lines lines entry ≠ [] := by
  cases append with
  | newLine => exact List.append_ne_nil_of_right_ne_nil _ (List.cons_ne_nil _ _)
  | lastLine =>
      unfold Append.lines
      cases lines.getLast? with
      | none => exact List.cons_ne_nil _ _
      | some last => exact List.append_ne_nil_of_right_ne_nil _ (List.cons_ne_nil _ _)

theorem headNames_append_proxy {addr proxy : Addr} (append : Append) (plain : PlainText proxy)
    (isTrusted : addrInPrefixes proxy trusted = true) {lines : List (List Char)}
    (nonempty : lines ≠ []) :
    HeadNames trusted addr (append.lines lines plain.text) ↔ HeadNames trusted addr lines := by
  cases lines with
  | nil => exact absurd rfl nonempty
  | cons first rest =>
      rw [headNames_cons]
      cases rest with
      | nil =>
          cases append with
          | newLine => exact headNames_cons
          | lastLine => exact headNames_cons.trans (namesLast_append_proxy plain isTrusted first)
      | cons second rest =>
          rcases lines_cons_cons append first second rest plain.text with ⟨more, isMore⟩
          rw [isMore]
          exact headNames_cons

/-- Behind the first proxy the first line names the same addresses, and the peer is trusted. -/
theorem arrive_trusted {addr : Addr} (proxies : List Proxy)
    (allTrusted : ∀ proxy ∈ proxies, addrInPrefixes proxy.addr trusted = true) {peer : Addr}
    (plain : PlainText peer) (isTrusted : addrInPrefixes peer trusted = true)
    {lines : List (List Char)} (nonempty : lines ≠ []) :
    (HeadNames trusted addr (arrive lines plain.text proxies).1 ↔ HeadNames trusted addr lines) ∧
      ∃ (last : Addr) (lastPlain : PlainText last), addrInPrefixes last trusted = true ∧
        (arrive lines plain.text proxies).2 = lastPlain.text := by
  induction proxies generalizing peer lines with
  | nil => exact ⟨Iff.rfl, peer, plain, isTrusted, rfl⟩
  | cons proxy proxies ih =>
      have rest := ih (fun other isOther => allTrusted other (List.mem_cons_of_mem _ isOther))
        proxy.plain (allTrusted proxy List.mem_cons_self)
        (lines_ne_nil proxy.append lines plain.text)
      exact ⟨rest.1.trans (headNames_append_proxy proxy.append plain isTrusted nonempty), rest.2⟩

end Entries

section Path

variable {trusted : List Prefix}

/-- The first line that arrives ends with what the proxies have appended, or it names the client
all the same. -/
def Path.Honest (path : Path trusted) (lines : List (List Char)) : Prop :=
  match path.proxies with
  | [] => True
  | proxy :: _ =>
      lines = [] ∨ (lines.length = 1 ∧ proxy.append = .lastLine) ∨
        HeadNames trusted path.client lines

/-- Behind a trusted proxy the client is the address that the first line names. -/
theorem clientIP_proxied {peer client : Addr} (plain : PlainText peer)
    (isTrusted : addrInPrefixes peer trusted = true)
    (untrusted : addrInPrefixes client trusted = false) {port : List Char}
    (digits : ∀ c ∈ port, c.isDigit = true) (lines : List (List Char)) :
    clientIP { remoteAddr := joinHostPort plain.text port, forwardedFor := lines } trusted =
      client.string ↔ HeadNames trusted client lines := by
  have differ : peer.string ≠ client.string := by
    intro same
    rw [Addr.string_injective same, untrusted] at isTrusted
    cases isTrusted
  have empty : ¬NamesLast trusted client [] := by
    rintro ⟨before, entry, after, split, reads, -⟩
    have isEntry : entry ∈ ([] : List Char).splitOn ',' := by
      rw [split]
      exact List.mem_append_right _ List.mem_cons_self
    rw [List.splitOn_nil, List.mem_singleton] at isEntry
    rw [isEntry] at reads
    cases reads
  unfold clientIP
  rw [peerAddr_join plain digits]
  simp only [peerTrusted_join plain digits, isTrusted, Bool.true_eq_false, if_false]
  cases lines with
  | nil =>
      refine iff_of_false differ ?_
      rintro ⟨line, impossible, -⟩
      cases impossible
  | cons line rest =>
      rw [headNames_cons, headerGet, List.head?_cons, Option.getD_some]
      split
      · rename_i none
        rw [none]
        exact iff_of_false differ empty
      · rw [← rightmost_line_iff]
        cases found : rightmost trusted (line.splitOn ',').reverse with
        | none => exact iff_of_false differ (by simp)
        | some addr =>
            exact ⟨fun same => congrArg some (Addr.string_injective same), fun same => by
              rw [Option.some_inj.mp same]⟩

/-- The client address is the true one exactly when the first header line that arrives holds what
the proxies have appended, or names the client all the same. -/
theorem clientIP_path_iff (path : Path trusted) (lines : List (List Char)) :
    clientIP (path.request lines) trusted = path.client.string ↔ path.Honest lines := by
  unfold Path.Honest Path.request
  cases isProxies : path.proxies with
  | nil =>
      refine iff_of_true ?_ trivial
      have untrusted := path.untrusted
      unfold clientIP
      rw [arrive, peerAddr_join path.plain path.digits]
      simp only [peerTrusted_join path.plain path.digits, untrusted, if_true]
  | cons proxy proxies =>
      have allTrusted := path.proxiesTrusted
      rw [isProxies] at allTrusted
      have one := lines_ne_nil proxy.append lines path.plain.text
      rcases @arrive_trusted trusted path.client proxies
        (fun other isOther => allTrusted other (List.mem_cons_of_mem _ isOther)) proxy.addr
        proxy.plain (allTrusted proxy List.mem_cons_self) _ one with
        ⟨names, last, lastPlain, isTrusted, isLast⟩
      simp only [arrive]
      rw [isLast, clientIP_proxied lastPlain isTrusted path.untrusted path.digits, names]
      cases lines with
      | nil =>
          refine iff_of_true ?_ (Or.inl rfl)
          have single : proxy.append.lines [] path.plain.text = [path.plain.text] := by
            cases proxy.append with
            | lastLine => rfl
            | newLine => rfl
          rw [single, headNames_cons]
          exact namesLast_client path.plain path.untrusted
      | cons first rest =>
          cases rest with
          | nil =>
              cases isAppend : proxy.append with
              | lastLine =>
                  refine iff_of_true ?_ (Or.inr (Or.inl ⟨rfl, rfl⟩))
                  exact headNames_cons.mpr
                    (namesLast_append_client path.plain path.untrusted first)
              | newLine => simp [Append.lines, headNames_cons]
          | cons second rest =>
              rcases lines_cons_cons proxy.append first second rest path.plain.text with
                ⟨more, isMore⟩
              rw [isMore, headNames_cons, headNames_cons]
              simp

end Path

section Forged

/-- A client at 203.0.113.9 behind a trusted proxy at 10.0.0.2 that adds its entry as a new
line. -/
def behindNewLine : Path [{ addr := .v4 ⟨[10, 0, 0, 0], rfl⟩, bits := 8 }] where
  client := .v4 ⟨[203, 0, 113, 9], rfl⟩
  plain := {
    text := "203.0.113.9".toList
    reads := by decide +kernel
    noComma := by decide
    noSpace := by simp [isSpace]
    noBracket := by decide }
  untrusted := by decide +kernel
  proxies := [{
    addr := .v4 ⟨[10, 0, 0, 2], rfl⟩
    plain := {
      text := "10.0.0.2".toList
      reads := by decide +kernel
      noComma := by decide
      noSpace := by simp [isSpace]
      noBracket := by decide }
    append := .newLine }]
  proxiesTrusted := by decide +kernel
  port := "40000".toList
  digits := by simp

/-- A header line of the client is taken for one of the proxy. -/
theorem clientIP_forged :
    ¬∀ (trusted : List Prefix) (path : Path trusted) (lines : List (List Char)),
      clientIP (path.request lines) trusted = path.client.string := by
  intro unforged
  have claimed := unforged _ behindNewLine ["198.51.100.7".toList]
  have answered : clientIP (behindNewLine.request ["198.51.100.7".toList])
      [{ addr := .v4 ⟨[10, 0, 0, 0], rfl⟩, bits := 8 }] = "198.51.100.7" := by
    decide +kernel
  rw [answered] at claimed
  revert claimed
  decide +kernel

end Forged

end TelemtPanel.Auth

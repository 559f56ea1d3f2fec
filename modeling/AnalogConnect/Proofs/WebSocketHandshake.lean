import AnalogConnect.Proofs.WebSocketWire
import AnalogConnect.WebSocketHandshake

/-!
# The phone's WebSocket handshake is bounded and exact

Whatever the daemon sends, and in whatever pieces, the phone takes no more than a header may have.
It accepts exactly the header blocks that a header may be and that say what they must, and leaves
the stream where the block ends (`handshake_exact`).
-/

universe u v

namespace AnalogConnect

namespace InputStream

/-- A stream once no more than `n` bytes were taken off another. -/
def Takes (n : ℕ) (input rest : InputStream) : Prop :=
  ∃ taken : List UInt8, taken.length ≤ n ∧ input.flatten = taken ++ rest.flatten

theorem Takes.refl (n : ℕ) (input : InputStream) : Takes n input input :=
  ⟨[], Nat.zero_le n, rfl⟩

theorem Takes.trans {m n : ℕ} {input input' rest : InputStream} (h : Takes m input input')
    (h' : Takes n input' rest) : Takes (m + n) input rest := by
  obtain ⟨taken, hlength, hinput⟩ := h
  obtain ⟨taken', hlength', hinput'⟩ := h'
  refine ⟨taken ++ taken', ?_, by rw [hinput, hinput', List.append_assoc]⟩
  rw [List.length_append]
  exact Nat.add_le_add hlength hlength'

theorem Takes.mono {m n : ℕ} (hle : m ≤ n) {input rest : InputStream} (h : Takes m input rest) :
    Takes n input rest := by
  obtain ⟨taken, hlength, hinput⟩ := h
  exact ⟨taken, hlength.trans hle, hinput⟩

end InputStream

namespace WebSocketWire

open InputStream (Takes)

def crlf : List UInt8 := [0x0D, 0x0A]

def Printable (line : List UInt8) : Prop := ∀ b ∈ line, 0x20 ≤ b ∧ b ≤ 0x7E

/-- Lines, each with its end. -/
def terminated (lines : List (List UInt8)) : List UInt8 := lines.flatMap (· ++ crlf)

/-- A header block: the status line, the header lines and an empty line. -/
def headerBlock (status : List UInt8) (headers : List (List UInt8)) : List UInt8 :=
  terminated (status :: headers) ++ crlf

def headerName (line : List UInt8) : List UInt8 :=
  toLowerCase (trim (line.take (line.idxOf 0x3A)))

def headerValue (line : List UInt8) : List UInt8 := trim (line.drop (line.idxOf 0x3A + 1))

/-- The value of the last header of a name. -/
def lastValue (name : List UInt8) (headers : List (List UInt8)) : Option (List UInt8) :=
  ((headers.filter (headerName · = name)).getLast?).map headerValue

/-- A header block that the phone may accept for the key it expects the answer to. -/
structure Accepted (expected status : List UInt8) (headers : List (List UInt8)) : Prop where
  fits : (headerBlock status headers).length ≤ maxHeaderBytes
  printable : ∀ line ∈ status :: headers, Printable line
  switching : status = usAscii "HTTP/1.1 101 Switching Protocols"
  colon : ∀ line ∈ headers, 0x3A ∈ line ∧ line.head? ≠ some 0x3A
  upgrade : ∃ value ∈ lastValue (usAscii "upgrade") headers,
    equalsIgnoreCase (usAscii "websocket") value = true
  connection : ∃ value ∈ lastValue (usAscii "connection") headers,
    ∃ token ∈ value.splitOn 0x2C, equalsIgnoreCase (usAscii "upgrade") (trim token) = true
  accept : lastValue (usAscii "sec-websocket-accept") headers = some expected
  extensions : ∀ line ∈ headers, headerName line ≠ usAscii "sec-websocket-extensions"

variable {input rest : InputStream} {line more tail expected : List UInt8}
  {headers : List (List UInt8)} {seen : HandshakeHeaders} {room remaining consumed : ℕ}

theorem terminated_cons (line : List UInt8) (lines : List (List UInt8)) :
    terminated (line :: lines) = line ++ (crlf ++ terminated lines) := by
  rw [terminated, List.flatMap_cons, List.append_assoc]
  rfl

theorem length_terminated_cons (line : List UInt8) (lines : List (List UInt8)) :
    (terminated (line :: lines)).length = line.length + 2 + (terminated lines).length := by
  rw [terminated_cons, List.length_append, List.length_append, ← Nat.add_assoc]
  rfl

/-! ## What is taken -/

theorem takes_readByte {byte : UInt8} (h : readByte input = .ok (byte, rest)) :
    Takes 1 input rest :=
  ⟨[byte], Nat.le_refl 1, flatten_of_readByte h⟩

theorem takes_ended {error : WireException} (h : readByte input = .error error) (n : ℕ) :
    Takes n input [] := by
  refine ⟨[], Nat.zero_le n, ?_⟩
  cases hinput : input.flatten with
  | nil => rfl
  | cons byte tail =>
    obtain ⟨rest, hread, -⟩ := exists_readByte hinput
    rw [hread] at h
    cases h

theorem takes_readLineFrom : ∀ (room : ℕ) (line : List UInt8) (input : InputStream),
    Takes (room + 1) input (readLineFrom room line input).2
  | 0, _, input => .refl 1 input
  | room + 1, line, input => by
    unfold readLineFrom
    split
    · exact takes_ended ‹_› _
    rename_i value input' hread
    have hone := takes_readByte hread
    split_ifs
    · split
      · exact (hone.trans (takes_ended ‹_› 0)).mono (by omega)
      rename_i next input'' hnext
      have htwo := hone.trans (takes_readByte hnext)
      split_ifs
      · exact htwo.mono (by omega)
      · exact htwo.mono (by omega)
    · exact hone.mono (by omega)
    · exact (hone.trans (takes_readLineFrom room _ input')).mono (by omega)

theorem takes_readLine (input : InputStream) (remaining : ℕ) :
    Takes remaining input (readLine input remaining).2 := by
  unfold readLine
  split_ifs
  · exact .refl _ _
  · exact (takes_readLineFrom _ _ _).mono (by omega)

/-! ## Lines -/

theorem readLineFrom_ok : ∀ {room : ℕ} {line : List UInt8} {input : InputStream}
    {full : List UInt8}, (readLineFrom room line input).1 = .ok full →
      ∃ more, full = line ++ more ∧ Printable more ∧
        input.flatten = more ++ (crlf ++ (readLineFrom room line input).2.flatten)
  | 0, _, _, _, h => by cases h
  | room + 1, line, input, full, h => by
    unfold readLineFrom at h ⊢
    split at h
    · cases h
    rename_i value input' hread
    split_ifs at h with hvalue hprintable
    · rw [if_pos hvalue]
      split at h
      · cases h
      rename_i next input'' hnext
      split_ifs at h with hlf
      rw [if_neg hlf]
      obtain rfl := Except.ok.inj h
      refine ⟨[], (List.append_nil line).symm, fun b hb => (nomatch hb), ?_⟩
      rw [flatten_of_readByte hread, flatten_of_readByte hnext, hvalue, not_not.1 hlf]
      rfl
    · obtain ⟨more, rfl, hmore, hinput⟩ := readLineFrom_ok h
      rw [if_neg hvalue, if_neg hprintable]
      rw [not_or, UInt8.not_lt, UInt8.not_lt] at hprintable
      refine ⟨value :: more, by rw [List.append_assoc, List.singleton_append],
        List.forall_mem_cons.2 ⟨hprintable, hmore⟩, ?_⟩
      rw [flatten_of_readByte hread, hinput, List.cons_append]

theorem exists_readLineFrom : ∀ {more : List UInt8} {room : ℕ} (line : List UInt8)
    {input : InputStream}, Printable more → more.length < room →
      input.flatten = more ++ (crlf ++ tail) →
        ∃ rest, readLineFrom room line input = (.ok (line ++ more), rest) ∧ rest.flatten = tail
  | _, 0, _, _, _, hroom, _ => absurd hroom (Nat.not_lt_zero _)
  | [], room + 1, line, input, _, _, hinput => by
    obtain ⟨input', hread, hinput'⟩ := exists_readByte (hinput : _ = 0x0D :: 0x0A :: tail)
    obtain ⟨rest, hnext, hrest⟩ := exists_readByte hinput'
    refine ⟨rest, ?_, hrest⟩
    unfold readLineFrom
    rw [hread, List.append_nil]
    dsimp only
    rw [if_pos rfl, hnext]
    rfl
  | b :: more, room + 1, line, input, hmore, hroom, hinput => by
    obtain ⟨input', hread, hinput'⟩ := exists_readByte (hinput : _ = b :: _)
    obtain ⟨hb, hmore⟩ := List.forall_mem_cons.1 hmore
    obtain ⟨rest, hline, hrest⟩ := exists_readLineFrom (line ++ [b]) hmore
      (Nat.lt_of_succ_lt_succ hroom) hinput'
    have hcr : b ≠ 0x0D := by
      rintro rfl
      exact absurd hb.1 (by decide)
    have hprintable : ¬ (b < 0x20 ∨ 0x7E < b) := by
      rw [not_or, UInt8.not_lt, UInt8.not_lt]
      exact hb
    refine ⟨rest, ?_, hrest⟩
    unfold readLineFrom
    rw [hread]
    dsimp only
    rw [if_neg hcr, if_neg hprintable, hline, List.append_assoc, List.singleton_append]

theorem readLine_ok (h : (readLine input remaining).1 = .ok line) : Printable line ∧
    input.flatten = line ++ (crlf ++ (readLine input remaining).2.flatten) := by
  unfold readLine at h ⊢
  split_ifs at h with hsmall
  rw [if_neg hsmall]
  obtain ⟨more, hline, hmore, hinput⟩ := readLineFrom_ok h
  obtain rfl : line = more := by rw [hline, List.nil_append]
  exact ⟨hmore, hinput⟩

theorem exists_readLine (hline : Printable line) (hfits : line.length + 2 ≤ remaining)
    (hinput : input.flatten = line ++ (crlf ++ tail)) :
    ∃ rest, readLine input remaining = (.ok line, rest) ∧ rest.flatten = tail := by
  have hroom : line.length < remaining - 1 := by omega
  obtain ⟨rest, hread, hrest⟩ := exists_readLineFrom [] hline hroom hinput
  refine ⟨rest, ?_, hrest⟩
  unfold readLine
  rw [if_neg (by omega), hread]
  rfl

theorem takes_line (h : (readLine input remaining).1 = .ok line) :
    Takes (line.length + 2) input (readLine input remaining).2 :=
  ⟨line ++ crlf, by rw [List.length_append]; exact Nat.le_refl _, by
    rw [List.append_assoc]
    exact (readLine_ok h).2⟩

theorem takes_readHeaders (expected : List UInt8) (seen : HandshakeHeaders) (consumed : ℕ)
    (input : InputStream) :
    Takes (maxHeaderBytes - consumed) input (readHeaders expected seen consumed input).2 := by
  rw [readHeaders]
  split
  · exact takes_readLine _ _
  rename_i line hline
  have htaken := takes_line hline
  have hle := length_readLine hline
  dsimp only
  split_ifs
  · exact htaken.mono hle
  split
  · exact htaken.mono hle
  · exact (htaken.trans (takes_readHeaders expected _ _ _)).mono (by omega)
termination_by maxHeaderBytes - consumed

theorem takes_validateHandshake (sha1 base64 : List UInt8 → List UInt8) (input : InputStream)
    (key : String) : Takes maxHeaderBytes input (validateHandshake sha1 base64 input key).2 := by
  unfold validateHandshake
  split
  · rename_i error rest hstatus
    have htaken := takes_readLine input maxHeaderBytes
    rwa [hstatus] at htaken
  rename_i status input' hstatus
  have hline : (readLine input maxHeaderBytes).1 = .ok status := congrArg Prod.fst hstatus
  have htaken : Takes (status.length + 2) input input' := by
    have hline := takes_line hline
    rwa [hstatus] at hline
  have hle := length_readLine hline
  split_ifs
  · exact htaken.mono hle
  have hheaders := htaken.trans (takes_readHeaders (expectedAccept sha1 base64 key)
    ⟨false, false, false⟩ (status.length + 2) input')
  split
  · rename_i error rest hrest
    rw [hrest] at hheaders
    exact hheaders.mono (by omega)
  · rename_i seen rest hrest
    rw [hrest] at hheaders
    split_ifs
    · exact hheaders.mono (by omega)
    · exact hheaders.mono (by omega)

/-! ## Headers -/

theorem readHeaders_ok (expected : List UInt8) (seen : HandshakeHeaders) (consumed : ℕ)
    (input : InputStream) {seen' : HandshakeHeaders}
    (h : (readHeaders expected seen consumed input).1 = .ok seen') :
    ∃ headers : List (List UInt8), (∀ line ∈ headers, Printable line) ∧
      consumed + ((terminated headers).length + 2) ≤ maxHeaderBytes ∧
      headers.foldlM (readHeader expected) seen = .ok seen' ∧
      input.flatten = terminated headers ++
        (crlf ++ (readHeaders expected seen consumed input).2.flatten) := by
  rw [readHeaders] at h ⊢
  split at h
  · cases h
  rename_i line hline
  obtain ⟨hprintable, hinput⟩ := readLine_ok hline
  have hle := length_readLine hline
  dsimp only at h ⊢
  split_ifs at h with hempty
  · rw [if_pos hempty]
    subst hempty
    obtain rfl := Except.ok.inj h
    rw [List.length_nil] at hle
    refine ⟨[], List.forall_mem_nil _, ?_, rfl, hinput⟩
    rw [terminated, List.flatMap_nil, List.length_nil]
    omega
  rw [if_neg hempty]
  split at h
  · cases h
  rename_i seen'' hheader
  obtain ⟨headers, hall, hfits, hfold, hrest⟩ := readHeaders_ok expected _ _ _ h
  refine ⟨line :: headers, List.forall_mem_cons.2 ⟨hprintable, hall⟩, ?_, ?_, ?_⟩
  · rw [length_terminated_cons]
    omega
  · rw [List.foldlM_cons, hheader]
    exact hfold
  · rw [hinput, hrest, terminated_cons, List.append_assoc, List.append_assoc]
termination_by maxHeaderBytes - consumed

theorem readHeaders_empty (h : readLine input (maxHeaderBytes - consumed) = (.ok [], rest)) :
    readHeaders expected seen consumed input = (.ok seen, rest) := by
  rw [readHeaders]
  split
  · rename_i error herror
    rw [h] at herror
    cases herror
  · rename_i line hline
    rw [h] at hline
    obtain rfl := Except.ok.inj hline
    dsimp only
    rw [if_pos rfl, h]

theorem readHeaders_line {seen' : HandshakeHeaders}
    (h : readLine input (maxHeaderBytes - consumed) = (.ok line, rest)) (hne : line ≠ [])
    (hheader : readHeader expected seen line = .ok seen') :
    readHeaders expected seen consumed input =
      readHeaders expected seen' (consumed + (line.length + 2)) rest := by
  rw [readHeaders]
  split
  · rename_i error herror
    rw [h] at herror
    cases herror
  · rename_i line' hline
    rw [h] at hline
    obtain rfl := Except.ok.inj hline
    dsimp only
    rw [if_neg hne, hheader, h]

theorem exists_readHeaders {seen' : HandshakeHeaders} : ∀ {headers : List (List UInt8)}
    {seen : HandshakeHeaders} {consumed : ℕ} {input : InputStream},
    (∀ line ∈ headers, Printable line ∧ line ≠ []) →
      consumed + ((terminated headers).length + 2) ≤ maxHeaderBytes →
        headers.foldlM (readHeader expected) seen = .ok seen' →
          input.flatten = terminated headers ++ (crlf ++ tail) →
            ∃ rest, readHeaders expected seen consumed input = (.ok seen', rest) ∧
              rest.flatten = tail
  | [], seen, consumed, input, _, hfits, hfold, hinput => by
    obtain rfl := Except.ok.inj hfold
    have hfits : ([] : List UInt8).length + 2 ≤ maxHeaderBytes - consumed := by
      rw [terminated, List.flatMap_nil, List.length_nil] at hfits
      rw [List.length_nil]
      omega
    have hnone : Printable [] := fun _ hmem => nomatch hmem
    obtain ⟨rest, hline, hrest⟩ := exists_readLine hnone hfits hinput
    exact ⟨rest, readHeaders_empty hline, hrest⟩
  | line :: headers, seen, consumed, input, hall, hfits, hfold, hinput => by
    obtain ⟨⟨hprintable, hne⟩, hall⟩ := List.forall_mem_cons.1 hall
    rw [length_terminated_cons] at hfits
    rw [terminated_cons, List.append_assoc, List.append_assoc] at hinput
    have hroom : line.length + 2 ≤ maxHeaderBytes - consumed := by omega
    obtain ⟨rest, hline, hrest⟩ := exists_readLine hprintable hroom hinput
    rw [List.foldlM_cons] at hfold
    cases hheader : readHeader expected seen line with
    | error error =>
      rw [hheader] at hfold
      cases hfold
    | ok seen'' =>
      rw [hheader] at hfold
      rw [readHeaders_line hline hne hheader]
      exact exists_readHeaders hall (by omega) hfold hrest

/-! ## What headers say -/

/-- A header line that is not refused. -/
def Readable (line : List UInt8) : Prop :=
  (0x3A ∈ line ∧ line.head? ≠ some 0x3A) ∧ headerName line ≠ usAscii "sec-websocket-extensions"

/-- What the headers said with one more. -/
def HandshakeHeaders.add (expected : List UInt8) (seen : HandshakeHeaders) (line : List UInt8) :
    HandshakeHeaders where
  upgrade :=
    if headerName line = usAscii "upgrade" then
      equalsIgnoreCase (usAscii "websocket") (headerValue line)
    else seen.upgrade
  connection :=
    if headerName line = usAscii "connection" then
      containsToken (headerValue line) (usAscii "upgrade")
    else seen.connection
  accept :=
    if headerName line = usAscii "sec-websocket-accept" then decide (expected = headerValue line)
    else seen.accept

theorem separator_iff (line : List UInt8) :
    ¬ (line.idxOf 0x3A = line.length ∨ line.idxOf 0x3A = 0) ↔
      0x3A ∈ line ∧ line.head? ≠ some 0x3A := by
  rw [not_or, List.idxOf_eq_length_iff, not_not]
  refine and_congr_right fun hmem => not_congr ?_
  cases line with
  | nil => cases hmem
  | cons b rest =>
    rw [List.idxOf_cons, List.head?_cons, Option.some.injEq]
    by_cases h : b = 0x3A
    · simp [h]
    · have hbeq : (b == 0x3A) = false := beq_eq_false_iff_ne.2 h
      simp [h, hbeq]

/-- What a header line that is not refused says is added to what was said. -/
theorem readHeader_eq (h : 0x3A ∈ line ∧ line.head? ≠ some 0x3A) :
    readHeader expected seen line =
      if headerName line = usAscii "sec-websocket-extensions" then
        .error (.io "WebSocket extensions are not supported")
      else .ok (seen.add expected line) := by
  have hname : toLowerCase (trim (line.take (line.idxOf 0x3A))) = headerName line := rfl
  have hvalue : trim (line.drop (line.idxOf 0x3A + 1)) = headerValue line := rfl
  unfold readHeader HandshakeHeaders.add
  dsimp only
  rw [if_neg ((separator_iff line).2 h), hname, hvalue]
  by_cases hupgrade : headerName line = usAscii "upgrade"
  · rw [hupgrade]
    rfl
  by_cases hconnection : headerName line = usAscii "connection"
  · rw [hconnection]
    rfl
  by_cases haccept : headerName line = usAscii "sec-websocket-accept"
  · rw [haccept]
    rfl
  rw [if_neg hupgrade, if_neg hconnection, if_neg haccept, if_neg hupgrade, if_neg hconnection,
    if_neg haccept]

theorem readHeader_ok_iff {seen' : HandshakeHeaders} :
    readHeader expected seen line = .ok seen' ↔
      Readable line ∧ seen' = seen.add expected line := by
  by_cases hcolon : 0x3A ∈ line ∧ line.head? ≠ some 0x3A
  · rw [readHeader_eq hcolon]
    by_cases hname : headerName line = usAscii "sec-websocket-extensions"
    · rw [if_pos hname]
      exact iff_of_false (fun h => nomatch h) fun h => h.1.2 hname
    · rw [if_neg hname, Except.ok.injEq, eq_comm]
      exact (and_iff_right ⟨hcolon, hname⟩).symm
  · have hrefused : readHeader expected seen line =
        .error (.io "WebSocket handshake is invalid") :=
      if_pos (not_not.1 fun h => hcolon ((separator_iff line).1 h))
    rw [hrefused]
    exact iff_of_false (fun h => nomatch h) fun h => hcolon h.1.1

theorem foldlM_readHeader_iff {seen' : HandshakeHeaders} :
    ∀ {headers : List (List UInt8)} {seen : HandshakeHeaders},
      headers.foldlM (readHeader expected) seen = .ok seen' ↔
        (∀ line ∈ headers, Readable line) ∧
          seen' = headers.foldl (HandshakeHeaders.add expected) seen
  | [], seen => by
    rw [List.foldlM_nil, List.foldl_nil]
    change Except.ok seen = Except.ok seen' ↔ _
    rw [Except.ok.injEq, eq_comm]
    exact (and_iff_right fun _ hmem => (nomatch hmem)).symm
  | line :: headers, seen => by
    rw [List.foldlM_cons, List.forall_mem_cons, List.foldl_cons]
    constructor
    · intro h
      cases hheader : readHeader expected seen line with
      | error error =>
        rw [hheader] at h
        cases h
      | ok seen'' =>
        rw [hheader] at h
        obtain ⟨hline, rfl⟩ := readHeader_ok_iff.1 hheader
        obtain ⟨hall, hseen⟩ := foldlM_readHeader_iff.1 h
        exact ⟨⟨hline, hall⟩, hseen⟩
    · rintro ⟨⟨hline, hall⟩, hseen⟩
      rw [readHeader_ok_iff.2 ⟨hline, rfl⟩]
      exact foldlM_readHeader_iff.2 ⟨hall, hseen⟩

/-- Where each element that passes sets a value, the last that passes has set it. -/
theorem foldl_set {α : Type u} {β : Type v} (p : α → Prop) [DecidablePred p] (f : α → β)
    (l : List α) (start : β) :
    l.foldl (fun value a => if p a then f a else value) start =
      ((l.filter p).getLast?.map f).getD start := by
  induction l using List.reverseRecOn with
  | nil => rfl
  | append_singleton l a ih =>
    rw [List.foldl_append, ih, List.filter_append, List.foldl_cons, List.foldl_nil]
    by_cases h : p a
    · simp [h]
    · simp [h]

/-- What a field holds is what the last header that sets it said. -/
theorem foldl_lastValue {β : Type v} (name : List UInt8) (f : List UInt8 → β)
    (headers : List (List UInt8)) (start : β) :
    headers.foldl (fun held line => if headerName line = name then f (headerValue line) else held)
      start = ((lastValue name headers).map f).getD start := by
  rw [lastValue, Option.map_map, ← foldl_set]
  rfl

theorem upgrade_foldl (headers : List (List UInt8)) :
    (headers.foldl (HandshakeHeaders.add expected) seen).upgrade =
      ((lastValue (usAscii "upgrade") headers).map (equalsIgnoreCase (usAscii "websocket"))).getD
        seen.upgrade := by
  rw [← foldl_lastValue]
  exact (List.foldl_hom HandshakeHeaders.upgrade fun _ _ => rfl).symm

theorem connection_foldl (headers : List (List UInt8)) :
    (headers.foldl (HandshakeHeaders.add expected) seen).connection =
      ((lastValue (usAscii "connection") headers).map
        (containsToken · (usAscii "upgrade"))).getD seen.connection := by
  rw [← foldl_lastValue]
  exact (List.foldl_hom HandshakeHeaders.connection fun _ _ => rfl).symm

theorem accept_foldl (headers : List (List UInt8)) :
    (headers.foldl (HandshakeHeaders.add expected) seen).accept =
      ((lastValue (usAscii "sec-websocket-accept") headers).map
        fun value => decide (expected = value)).getD seen.accept := by
  rw [← foldl_lastValue]
  exact (List.foldl_hom HandshakeHeaders.accept fun _ _ => rfl).symm

theorem containsToken_iff (value : List UInt8) : containsToken value (usAscii "upgrade") = true ↔
    ∃ token ∈ value.splitOn 0x2C, equalsIgnoreCase (usAscii "upgrade") (trim token) = true := by
  have hempty : ∀ token : List UInt8, decide (token = []) = true →
      ¬ equalsIgnoreCase (usAscii "upgrade") (trim token) = true := by
    intro token htoken
    rw [of_decide_eq_true htoken]
    decide
  unfold containsToken split
  rw [List.any_eq_true]
  dsimp only
  split_ifs
  · rfl
  constructor
  · rintro ⟨token, htoken, hequals⟩
    exact ⟨token, (List.rdropWhile_prefix _ _).subset htoken, hequals⟩
  · rintro ⟨token, htoken, hequals⟩
    rw [← @List.rdropWhile_append_rtakeWhile _ (fun token => decide (token = []))
      (value.splitOn 0x2C), List.mem_append] at htoken
    rcases htoken with htoken | htoken
    · exact ⟨token, htoken, hequals⟩
    · exact absurd hequals (hempty token
        (@List.mem_rtakeWhile_imp _ (fun token => decide (token = [])) _ token htoken))

theorem getD_map_eq_true {β : Type v} {value : Option β} {f : β → Bool} :
    (value.map f).getD false = true ↔ ∃ b ∈ value, f b = true := by
  cases value with
  | none => simp
  | some b => simp

/-! ## The handshake -/

theorem length_headerBlock (status : List UInt8) (headers : List (List UInt8)) :
    (headerBlock status headers).length =
      status.length + 2 + ((terminated headers).length + 2) := by
  rw [headerBlock, List.length_append, length_terminated_cons, Nat.add_assoc]
  rfl

theorem printable_switching : Printable (usAscii "HTTP/1.1 101 Switching Protocols") := by
  have hall : (usAscii "HTTP/1.1 101 Switching Protocols").all
      (fun b => decide (0x20 ≤ b ∧ b ≤ 0x7E)) = true := by decide
  exact fun b hb => of_decide_eq_true (List.all_eq_true.1 hall b hb)

/-- A header block may be accepted where the loop over its lines sees what it must. -/
theorem accepted_iff {status : List UInt8} : Accepted expected status headers ↔
    status = usAscii "HTTP/1.1 101 Switching Protocols" ∧
      (∀ line ∈ headers, Printable line) ∧
      status.length + 2 + ((terminated headers).length + 2) ≤ maxHeaderBytes ∧
      ∃ seen, headers.foldlM (readHeader expected) ⟨false, false, false⟩ = .ok seen ∧
        seen.upgrade = true ∧ seen.connection = true ∧ seen.accept = true := by
  constructor
  · intro h
    refine ⟨h.switching, fun line hline => h.printable line (List.mem_cons_of_mem _ hline),
      (length_headerBlock status headers).symm.trans_le h.fits, _,
      foldlM_readHeader_iff.2 ⟨fun line hline => ⟨h.colon line hline, h.extensions line hline⟩,
        rfl⟩, ?_, ?_, ?_⟩
    · rw [upgrade_foldl, getD_map_eq_true]
      exact h.upgrade
    · rw [connection_foldl, getD_map_eq_true]
      obtain ⟨value, hvalue, htoken⟩ := h.connection
      exact ⟨value, hvalue, (containsToken_iff value).2 htoken⟩
    · rw [accept_foldl, getD_map_eq_true]
      exact ⟨expected, h.accept, decide_eq_true rfl⟩
  · rintro ⟨rfl, hprintable, hfits, seen, hfold, hupgrade, hconnection, haccept⟩
    obtain ⟨hreadable, rfl⟩ := foldlM_readHeader_iff.1 hfold
    rw [upgrade_foldl, getD_map_eq_true] at hupgrade
    rw [connection_foldl, getD_map_eq_true] at hconnection
    rw [accept_foldl, getD_map_eq_true] at haccept
    obtain ⟨value, hvalue, htoken⟩ := hconnection
    obtain ⟨accepted, haccepted, hequal⟩ := haccept
    refine
      { fits := (length_headerBlock _ headers).trans_le hfits
        printable := List.forall_mem_cons.2 ⟨printable_switching, hprintable⟩
        switching := rfl
        colon := fun line hline => (hreadable line hline).1
        upgrade := hupgrade
        connection := ⟨value, hvalue, (containsToken_iff value).1 htoken⟩
        accept := ?_
        extensions := fun line hline => (hreadable line hline).2 }
    rw [of_decide_eq_true hequal]
    exact haccepted

theorem validateHandshake_ok {sha1 base64 : List UInt8 → List UInt8} {key : String}
    (h : (validateHandshake sha1 base64 input key).1 = .ok ()) : ∃ status headers,
      input.flatten = headerBlock status headers ++
        (validateHandshake sha1 base64 input key).2.flatten ∧
          Accepted (expectedAccept sha1 base64 key) status headers := by
  unfold validateHandshake at h ⊢
  rcases hstatus : readLine input maxHeaderBytes with ⟨error | status, input'⟩
  · rw [hstatus] at h
    cases h
  rw [hstatus] at h
  dsimp only at h ⊢
  split_ifs at h with hswitching
  rw [if_neg hswitching]
  rcases hheaders : readHeaders (expectedAccept sha1 base64 key) ⟨false, false, false⟩
    (status.length + 2) input' with ⟨error | seen, rest⟩
  · rw [hheaders] at h
    cases h
  rw [hheaders] at h
  dsimp only at h ⊢
  split_ifs at h with hseen
  rw [if_neg hseen]
  obtain ⟨-, hinput⟩ := readLine_ok (congrArg Prod.fst hstatus)
  obtain ⟨headers, hprintable, hfits, hfold, hrest⟩ :=
    readHeaders_ok _ _ _ _ (congrArg Prod.fst hheaders)
  rw [hstatus] at hinput
  rw [hheaders] at hrest
  have hflags : seen.upgrade = true ∧ seen.connection = true ∧ seen.accept = true := by
    simpa [not_or, and_assoc] using hseen
  refine ⟨status, headers, ?_, accepted_iff.2 ⟨not_not.1 hswitching, hprintable, hfits, seen,
    hfold, hflags⟩⟩
  rw [hinput, hrest, headerBlock, terminated_cons, List.append_assoc, List.append_assoc,
    List.append_assoc]

theorem exists_validateHandshake {sha1 base64 : List UInt8 → List UInt8} {key : String}
    {status : List UInt8} (h : Accepted (expectedAccept sha1 base64 key) status headers)
    (hinput : input.flatten = headerBlock status headers ++ tail) :
    ∃ rest, validateHandshake sha1 base64 input key = (.ok (), rest) ∧ rest.flatten = tail := by
  obtain ⟨hstatus, hprintable, hfits, seen, hfold, hupgrade, hconnection, haccept⟩ :=
    accepted_iff.1 h
  have hne : ∀ line ∈ headers, Printable line ∧ line ≠ [] := fun line hline =>
    ⟨hprintable line hline, List.ne_nil_of_mem (h.colon line hline).1⟩
  rw [headerBlock, terminated_cons, List.append_assoc, List.append_assoc, List.append_assoc]
    at hinput
  have hroom : status.length + 2 ≤ maxHeaderBytes := by omega
  obtain ⟨rest, hline, hrest⟩ :=
    exists_readLine (h.printable status List.mem_cons_self) hroom hinput
  obtain ⟨rest', hheaders, hrest'⟩ := exists_readHeaders hne hfits hfold hrest
  refine ⟨rest', ?_, hrest'⟩
  unfold validateHandshake
  rw [hline]
  dsimp only
  rw [if_neg (not_not.2 hstatus), hheaders]
  dsimp only
  rw [hupgrade, hconnection, haccept]
  rfl

/-- The phone takes no more than a header may have, and accepts exactly where the stream begins with
a header block it may accept, and leaves what comes after. -/
theorem handshake_exact (sha1 base64 : List UInt8 → List UInt8) (input : InputStream)
    (key : String) :
    Takes maxHeaderBytes input (validateHandshake sha1 base64 input key).2 ∧
      ∀ tail, ((validateHandshake sha1 base64 input key).1 = .ok () ∧
        (validateHandshake sha1 base64 input key).2.flatten = tail) ↔
          ∃ status headers, input.flatten = headerBlock status headers ++ tail ∧
            Accepted (expectedAccept sha1 base64 key) status headers := by
  refine ⟨takes_validateHandshake sha1 base64 input key, fun tail => ⟨?_, ?_⟩⟩
  · rintro ⟨hok, rfl⟩
    exact validateHandshake_ok hok
  · rintro ⟨status, headers, hinput, haccepted⟩
    obtain ⟨rest, heq, hrest⟩ := exists_validateHandshake haccepted hinput
    rw [heq]
    exact ⟨rfl, hrest⟩

end WebSocketWire

end AnalogConnect

import Uvhttp.WebSocket.Handshake

open text_search

namespace uvhttp.websocket

theorem base64_not_blank {c : UInt8} (h : base64_char c = true) : c ≠ 32 ∧ c ≠ 13 ∧ c ≠ 10 := by
  refine ⟨?_, ?_, ?_⟩
  · rintro rfl
    revert h
    decide
  · rintro rfl
    revert h
    decide
  · rintro rfl
    revert h
    decide

/-- Base64 text on the line of its header is extracted as it is. -/
theorem extract_line {text behind name value rest : List UInt8} (hname : name ≠ [])
    (hfind : find tolower name text = some (name ++ 58 :: 32 :: (value ++ 13 :: rest)))
    (hvalue : value.all base64_char = true) (hlen : value.length ≤ 63) :
    extract_value text behind name = some value := by
  have hchars : ∀ c ∈ value, c ≠ 32 ∧ c ≠ 13 ∧ c ≠ 10 := by
    intro c hc
    exact base64_not_blank (List.all_eq_true.mp hvalue c hc)
  have hlong : (name ++ 58 :: 32 :: (value ++ 13 :: rest)).length ≠ name.length := by
    simp only [List.length_append, List.length_cons]
    omega
  have hdrop : (name ++ 58 :: 32 :: (value ++ 13 :: rest)).drop (name.length + 1) = 32 :: (value ++ 13 :: rest) := by
    rw [← List.drop_drop, List.drop_left]
    rfl
  have hskip : (32 :: (value ++ 13 :: rest)).dropWhile (fun c => decide (c = 32)) = value ++ 13 :: rest := by
    rw [List.dropWhile_cons_of_pos (by decide)]
    cases value with
    | nil => exact List.dropWhile_cons_of_neg (by decide)
    | cons c value =>
      have hc := (hchars c List.mem_cons_self).1
      rw [List.cons_append]
      exact List.dropWhile_cons_of_neg (by simpa using hc)
  have hline : (value ++ 13 :: rest).takeWhile (fun c => c != 13 && c != 10) = value := by
    rw [List.takeWhile_append_of_pos, List.takeWhile_cons_of_neg (by decide), List.append_nil]
    intro c hc
    have := hchars c hc
    simp [this.2.1, this.2.2]
  rw [extract_value, uvhttp_ws_strcasestr, if_neg hname, hfind, Option.map_some]
  simp only [if_neg hlong, hdrop, hskip, hline]
  rw [List.take_of_length_le hlen]

section response

/-- The response up to the line of the accept value. -/
theorem handshake_response_eq (accept : List UInt8) :
    handshake_response accept =
      bytes "HTTP/1.1 101 Switching Protocols\r\nUpgrade: websocket\r\nConnection: Upgrade\r" ++ 10 ::
        (HEADER_WEBSOCKET_ACCEPT ++ 58 :: 32 :: (accept ++ 13 :: 10 :: bytes "\r\n")) := by
  have hfront : bytes "HTTP/1.1 101 Switching Protocols\r\n" ++ bytes "Upgrade: websocket\r\n" ++
      bytes "Connection: Upgrade\r\n" ++ bytes "Sec-WebSocket-Accept: " =
      bytes "HTTP/1.1 101 Switching Protocols\r\nUpgrade: websocket\r\nConnection: Upgrade\r" ++ 10 ::
        (HEADER_WEBSOCKET_ACCEPT ++ [58, 32]) := by decide +kernel
  have hend : bytes "\r\n" = [13, 10] := by decide
  rw [handshake_response, hfront]
  simp only [hend, List.append_assoc, List.cons_append, List.nil_append]

/-- The client finds the accept value that the server has sent. -/
theorem extract_response {accept behind : List UInt8} (haccept : accept.all base64_char = true)
    (hlen : accept.length ≤ 63) :
    extract_value (handshake_response accept) behind HEADER_WEBSOCKET_ACCEPT = some accept := by
  have hname : HEADER_WEBSOCKET_ACCEPT ≠ [] := by decide
  apply extract_line hname ?_ haccept hlen
  · exact 10 :: bytes "\r\n"
  · rw [handshake_response_eq, find_skip (by decide) hname (by decide +kernel)]
    exact find_here rfl hname _

theorem response_status (accept : List UInt8) : (handshake_response accept).take 12 = bytes "HTTP/1.1 101" := by
  have hfront : bytes "HTTP/1.1 101 Switching Protocols\r\n" =
      bytes "HTTP/1.1 101" ++ bytes " Switching Protocols\r\n" := by decide
  rw [handshake_response, hfront]
  simp only [List.append_assoc]
  exact @List.take_left _ (bytes "HTTP/1.1 101") _

theorem response_upgrade (accept : List UInt8) :
    (uvhttp_ws_strcasestr (handshake_response accept) (bytes "Upgrade: websocket")).isNone = false := by
  have hname : bytes "Upgrade: websocket" ≠ [] := by decide
  have hfront : bytes "HTTP/1.1 101 Switching Protocols\r\n" ++ bytes "Upgrade: websocket\r\n" =
      bytes "HTTP/1.1 101 Switching Protocols\r" ++ 10 :: (bytes "Upgrade: websocket" ++ bytes "\r\n") := by
    decide +kernel
  rw [uvhttp_ws_strcasestr, if_neg hname, handshake_response, hfront]
  simp only [List.append_assoc, List.cons_append]
  rw [find_skip (by decide) hname (by decide +kernel), find_here rfl hname]
  rfl

end response

section request

/-- The request in the parts that the name of the key header does not cross. -/
theorem handshake_request_eq (path host key : List UInt8) :
    handshake_request path host key =
      bytes "GET" ++ 32 :: (path ++ 32 :: (bytes "HTTP/1.1\r\nHost:" ++ 32 :: (host ++ 13 ::
        (bytes "\nUpgrade: websocket\r\nConnection: Upgrade\r" ++ 10 ::
          (HEADER_WEBSOCKET_KEY ++ 58 :: 32 :: (key ++ 13 :: 10 ::
            (bytes "Sec-WebSocket-Version: 13\r\n" ++ bytes "\r\n"))))))) := by
  have hget : bytes "GET " = bytes "GET" ++ [32] := by decide
  have hhost : bytes " HTTP/1.1\r\n" ++ bytes "Host: " = 32 :: (bytes "HTTP/1.1\r\nHost:" ++ [32]) := by decide
  have hkey : bytes "\r\n" ++ bytes "Upgrade: websocket\r\n" ++ bytes "Connection: Upgrade\r\n" ++
      bytes "Sec-WebSocket-Key: " = 13 :: (bytes "\nUpgrade: websocket\r\nConnection: Upgrade\r" ++ 10 ::
        (HEADER_WEBSOCKET_KEY ++ [58, 32])) := by decide +kernel
  have hend : bytes "\r\n" ++ bytes "Sec-WebSocket-Version: 13\r\n" =
      13 :: 10 :: bytes "Sec-WebSocket-Version: 13\r\n" := by decide
  calc handshake_request path host key =
      bytes "GET " ++ path ++ (bytes " HTTP/1.1\r\n" ++ bytes "Host: ") ++ host ++
        (bytes "\r\n" ++ bytes "Upgrade: websocket\r\n" ++ bytes "Connection: Upgrade\r\n" ++
          bytes "Sec-WebSocket-Key: ") ++ key ++ (bytes "\r\n" ++ bytes "Sec-WebSocket-Version: 13\r\n") ++
        bytes "\r\n" := by simp only [handshake_request, List.append_assoc]
    _ = _ := by
      rw [hget, hhost, hkey, hend]
      simp only [List.append_assoc, List.cons_append, List.nil_append]

theorem key_name_ne_nil : HEADER_WEBSOCKET_KEY ≠ [] := by decide

/-- The server finds the key when its name is nowhere in path and host. -/
theorem extract_request {path host key behind : List UInt8}
    (hpath : Absent tolower HEADER_WEBSOCKET_KEY path) (hhost : Absent tolower HEADER_WEBSOCKET_KEY host)
    (hkey : key.all base64_char = true) (hlen : key.length ≤ 63) :
    extract_value (handshake_request path host key) behind HEADER_WEBSOCKET_KEY = some key := by
  have hname := key_name_ne_nil
  apply extract_line hname ?_ hkey hlen
  · exact 10 :: (bytes "Sec-WebSocket-Version: 13\r\n" ++ bytes "\r\n")
  · rw [handshake_request_eq, find_skip (by decide) hname (by decide), find_skip (by decide) hname hpath,
      find_skip (by decide) hname (by decide +kernel), find_skip (by decide) hname hhost,
      find_skip (by decide) hname (by decide +kernel)]
    exact find_here rfl hname _

/-- The server finds some key in every request. -/
theorem extract_request_isSome (path host key behind : List UInt8) :
    ∃ found, extract_value (handshake_request path host key) behind HEADER_WEBSOCKET_KEY = some found ∧
      found.length ≤ 63 := by
  have hname := key_name_ne_nil
  have hkeep : ∀ {separator : UInt8} (_ : tolower separator ∉ HEADER_WEBSOCKET_KEY.map tolower)
      (front : List UInt8) {rest : List UInt8}, (find tolower HEADER_WEBSOCKET_KEY rest).isSome = true →
      (find tolower HEADER_WEBSOCKET_KEY (front ++ separator :: rest)).isSome = true := by
    intro separator hforeign front rest hrest
    rw [find_separated hforeign hname]
    cases find tolower HEADER_WEBSOCKET_KEY front with
    | none => exact hrest
    | some found => rfl
  have hfound : (find tolower HEADER_WEBSOCKET_KEY (handshake_request path host key)).isSome = true := by
    rw [handshake_request_eq]
    refine hkeep (by decide) _ (hkeep (by decide) _ (hkeep (by decide) _ (hkeep (by decide) _
      (hkeep (by decide) _ ?_))))
    rw [find_here rfl hname]
    rfl
  obtain ⟨text, htext⟩ := Option.isSome_iff_exists.mp hfound
  rw [extract_value, uvhttp_ws_strcasestr, if_neg hname, htext]
  exact ⟨_, rfl, List.length_take_le _ _⟩

end request

section agreement

variable (d : Digest) (raw_key host path : List UInt8)

/-- The accept value that belongs to a key. -/
def accept_of : List UInt8 := d.base64_encode (d.sha1 (d.base64_encode raw_key ++ WS_GUID))

/-- Both ends run the handshake: the client writes its request, the server
answers it, and the client verifies the answer. It succeeds, and both are open. -/
def Agreed (client server : HandshakeConnection) (request_len response_len : Nat)
    (behind_request behind_response : List UInt8) : Prop :=
  let asked := uvhttp_ws_handshake_client d (some raw_key) client host path request_len
  let answered := uvhttp_ws_handshake_server d server asked.2.2 behind_request response_len
  let verified := uvhttp_ws_verify_handshake_response d asked.2.1 answered.2.2 behind_response answered.2.2.length
  asked.1 = .OK ∧ answered.1 = .OK ∧ verified.1 = .OK ∧ verified.2.state = .OPEN ∧ answered.2.1.state = .OPEN

/-- The name of the key header is in neither path nor host, or what the server
reads behind its first occurrence has the accept value of the key. -/
def Placed (behind_request : List UInt8) : Prop :=
  (Absent tolower HEADER_WEBSOCKET_KEY path ∧ Absent tolower HEADER_WEBSOCKET_KEY host) ∨
    ∀ found ∈ extract_value (handshake_request path host (d.base64_encode raw_key)) behind_request
      HEADER_WEBSOCKET_KEY, uvhttp_ws_generate_accept d found = accept_of d raw_key

variable {d raw_key host path}

theorem client_eq (client : HandshakeConnection) {request_len : Nat}
    (hroom : (handshake_request path host (d.base64_encode raw_key)).length < request_len) :
    uvhttp_ws_handshake_client d (some raw_key) client host path request_len =
      (.OK, { client with client_key := (d.base64_encode raw_key).take 63 },
        handshake_request path host (d.base64_encode raw_key)) := by
  rw [uvhttp_ws_handshake_client]
  exact if_neg (by omega)

variable (hd : d.Documented) (hraw : raw_key.length = 16)

include hd hraw

theorem key_length : (d.base64_encode raw_key).length = 24 := by rw [hd.base64_length, hraw]

/-- What the client expects. -/
theorem expected_eq :
    d.base64_encode (d.sha1 (((d.base64_encode raw_key).take 63 ++ WS_GUID).take 127)) = accept_of d raw_key := by
  have hkey := key_length hd hraw
  have hguid : WS_GUID.length = 36 := by decide
  have hwhole : (d.base64_encode raw_key).take 63 = d.base64_encode raw_key := List.take_of_length_le (by omega)
  rw [hwhole, List.take_of_length_le (by rw [List.length_append]; omega)]
  rfl

theorem generate_accept_key : uvhttp_ws_generate_accept d (d.base64_encode raw_key) = accept_of d raw_key := by
  have hkey := key_length hd hraw
  have hguid : WS_GUID.length = 36 := by decide
  rw [uvhttp_ws_generate_accept, List.take_of_length_le (by rw [List.length_append]; omega)]
  rfl

omit hraw in
theorem generate_accept_length (key : List UInt8) : (uvhttp_ws_generate_accept d key).length = 28 := by
  rw [uvhttp_ws_generate_accept, hd.base64_length, hd.sha1_length]

theorem placed_iff {behind_request found : List UInt8}
    (hfound : extract_value (handshake_request path host (d.base64_encode raw_key)) behind_request
      HEADER_WEBSOCKET_KEY = some found) :
    Placed d raw_key host path behind_request ↔ uvhttp_ws_generate_accept d found = accept_of d raw_key := by
  unfold Placed
  rw [hfound]
  constructor
  · rintro (⟨hpath, hhost⟩ | hsame)
    · have hkey := @extract_request path host _ behind_request hpath hhost (hd.base64_chars raw_key)
        (by rw [key_length hd hraw]; decide)
      rw [hkey] at hfound
      cases hfound
      exact generate_accept_key hd hraw
    · exact hsame found rfl
  · intro hsame
    right
    rintro other hother
    cases hother
    exact hsame

/-- The ends agree exactly when the key is placed where the server finds it. -/
theorem agreed_iff (client server : HandshakeConnection) {request_len response_len : Nat}
    {behind_request behind_response : List UInt8}
    (hrequest : (handshake_request path host (d.base64_encode raw_key)).length < request_len)
    (hresponse : 28 + (handshake_response []).length < response_len) :
    Agreed d raw_key host path client server request_len response_len behind_request behind_response ↔
      Placed d raw_key host path behind_request := by
  obtain ⟨found, hfound, -⟩ := extract_request_isSome path host (d.base64_encode raw_key) behind_request
  have haccept := generate_accept_length hd found
  have hlength : (handshake_response (uvhttp_ws_generate_accept d found)).length =
      28 + (handshake_response []).length := by
    simp only [handshake_response, List.length_append, haccept, List.length_nil]
    omega
  have hserver : uvhttp_ws_handshake_server d server (handshake_request path host (d.base64_encode raw_key))
      behind_request response_len =
      (.OK, { server with state := .OPEN }, handshake_response (uvhttp_ws_generate_accept d found)) := by
    rw [uvhttp_ws_handshake_server, hfound]
    dsimp only
    rw [if_neg (by omega)]
  have hkey : (d.base64_encode raw_key).take 63 ≠ [] := by
    intro hnil
    have := congrArg List.length hnil
    rw [List.length_take, key_length hd hraw, List.length_nil] at this
    omega
  have hextracted : extract_value (handshake_response (uvhttp_ws_generate_accept d found)) behind_response
      HEADER_WEBSOCKET_ACCEPT = some (uvhttp_ws_generate_accept d found) :=
    extract_response (hd.base64_chars _) (by omega)
  rw [placed_iff hd hraw hfound]
  unfold Agreed
  dsimp only
  rw [client_eq client hrequest]
  dsimp only
  rw [hserver, uvhttp_ws_verify_handshake_response]
  dsimp only
  rw [if_neg (by omega), if_neg (by rw [response_status]; simp), if_neg (by rw [response_upgrade]; simp),
    hextracted, expected_eq hd hraw]
  dsimp only
  by_cases hsame : uvhttp_ws_generate_accept d found = accept_of d raw_key
  · rw [if_neg (fun h => h.2 hsame)]
    exact iff_of_true ⟨rfl, rfl, rfl, rfl, rfl⟩ hsame
  · rw [if_pos ⟨hkey, hsame⟩]
    refine iff_of_false ?_ hsame
    rintro ⟨-, -, hverified, -⟩
    cases hverified

end agreement

section rejection

/-- The name of a header line. -/
def line_name (line : List UInt8) : List UInt8 := line.takeWhile (· != 58)

/-- The value of a header line, without the blanks around it. -/
def line_value (line : List UInt8) : List UInt8 :=
  let blank := fun c : UInt8 => c == 32 || c == 9
  ((((line.drop ((line_name line).length + 1)).dropWhile blank).reverse.dropWhile blank).reverse)

/-- The value of the header Sec-WebSocket-Accept, in the lines between the status
line and the empty line. -/
def accept_value (response : List UInt8) : Option (List UInt8) :=
  match text_lines.block 13 10 response with
  | none => none
  | some (lines, _) =>
    (lines.tail.find? fun line => (line_name line).map tolower = HEADER_WEBSOCKET_ACCEPT.map tolower).map line_value

variable (d : Digest) (raw_key : List UInt8)

/-- A client that has sent its key refuses a response with another accept value,
and its state stays as it is. -/
def Rejects (client : HandshakeConnection) (response behind : List UInt8) (response_len : Nat) : Prop :=
  ∀ value, accept_value response = some value → value ≠ accept_of d raw_key →
    (uvhttp_ws_verify_handshake_response d client response behind response_len).1 ≠ .OK ∧
      (uvhttp_ws_verify_handshake_response d client response behind response_len).2.state = client.state

/-- A response whose header has another accept value, but in which the right one
stands behind the first occurrence of the header's name. -/
structure Forged (response behind : List UInt8) (response_len : Nat) : Prop where
  present : response_len ≠ 0
  status : response.take 12 = bytes "HTTP/1.1 101"
  upgrade : (uvhttp_ws_strcasestr response (bytes "Upgrade: websocket")).isSome = true
  first : extract_value response behind HEADER_WEBSOCKET_ACCEPT = some (accept_of d raw_key)
  header : ∃ value, accept_value response = some value ∧ value ≠ accept_of d raw_key

variable {d raw_key}

theorem rejects_iff (hd : d.Documented) (hraw : raw_key.length = 16) {client : HandshakeConnection}
    (hclient : client.client_key = (d.base64_encode raw_key).take 63) (response behind : List UInt8)
    (response_len : Nat) :
    Rejects d raw_key client response behind response_len ↔ ¬ Forged d raw_key response behind response_len := by
  have hkey : client.client_key ≠ [] := by
    intro hnil
    have hlength := congrArg List.length hnil
    rw [hclient, List.length_take, key_length hd hraw, List.length_nil] at hlength
    omega
  have hexpected : d.base64_encode (d.sha1 ((client.client_key ++ WS_GUID).take 127)) = accept_of d raw_key := by
    rw [hclient]
    exact expected_eq hd hraw
  constructor
  · rintro hrejects ⟨hpresent, hstatus, hupgrade, hfirst, value, hvalue, hother⟩
    apply (hrejects value hvalue hother).1
    rw [uvhttp_ws_verify_handshake_response, if_neg hpresent, if_neg (not_not_intro hstatus),
      if_neg (by simpa using Option.isSome_iff_ne_none.mp hupgrade), hfirst]
    dsimp only
    rw [hexpected, if_neg (fun h => h.2 rfl)]
  · intro hforged value hvalue hother
    have hfailed : (UvhttpError.INVALID_PARAM, client).1 ≠ .OK ∧
        (UvhttpError.INVALID_PARAM, client).2.state = client.state := ⟨by simp, rfl⟩
    unfold uvhttp_ws_verify_handshake_response
    by_cases hpresent : response_len = 0
    · rw [if_pos hpresent]
      exact hfailed
    · rw [if_neg hpresent]
      by_cases hstatus : response.take 12 = bytes "HTTP/1.1 101"
      · rw [if_neg (not_not_intro hstatus)]
        cases hupgrade : uvhttp_ws_strcasestr response (bytes "Upgrade: websocket") with
        | none =>
          rw [Option.isNone_none, if_pos rfl]
          exact hfailed
        | some found =>
          rw [if_neg (by simp)]
          cases hextract : extract_value response behind HEADER_WEBSOCKET_ACCEPT with
          | none => exact hfailed
          | some accept =>
            dsimp only
            have hwrong : accept ≠ accept_of d raw_key := by
              rintro rfl
              exact hforged ⟨hpresent, hstatus, by rw [hupgrade]; rfl, hextract, value, hvalue, hother⟩
            rw [hexpected, if_pos ⟨hkey, hwrong⟩]
            exact hfailed
      · rw [if_pos hstatus]
        exact hfailed

end rejection

/-- For every host, path, key and response the two ends agree, and the client
refuses a response with another accept value, exactly when the name of the key
header in path or host does not mislead the server and the name of the accept
header in the response does not mislead the client. -/
theorem handshake_sound_iff {d : Digest} (hd : d.Documented) {raw_key : List UInt8} (hraw : raw_key.length = 16)
    (host path : List UInt8) (client server : HandshakeConnection) {request_len response_len : Nat}
    (behind_request behind_response : List UInt8)
    (hrequest : (handshake_request path host (d.base64_encode raw_key)).length < request_len)
    (hresponse : 28 + (handshake_response []).length < response_len) (response behind : List UInt8) (len : Nat) :
    (Agreed d raw_key host path client server request_len response_len behind_request behind_response ∧
        Rejects d raw_key (uvhttp_ws_handshake_client d (some raw_key) client host path request_len).2.1 response
          behind len) ↔
      Placed d raw_key host path behind_request ∧ ¬ Forged d raw_key response behind len := by
  rw [agreed_iff hd hraw client server hrequest hresponse, client_eq client hrequest]
  refine and_congr_right fun _ => ?_
  exact rejects_iff hd hraw rfl response behind len

/-- The character for six bits. -/
def base64_digit (n : Nat) : UInt8 :=
  if n < 26 then UInt8.ofNat (65 + n)
  else if n < 52 then UInt8.ofNat (71 + n)
  else if n < 62 then UInt8.ofNat (n - 4)
  else if n = 62 then 43
  else 47

/-- Base64 with padding. -/
def base64 : List UInt8 → List UInt8
  | [] => []
  | [a] => [base64_digit (a.toNat / 4), base64_digit (a.toNat % 4 * 16), 61, 61]
  | [a, b] =>
    [base64_digit (a.toNat / 4), base64_digit (a.toNat % 4 * 16 + b.toNat / 16), base64_digit (b.toNat % 16 * 4), 61]
  | a :: b :: c :: rest =>
    base64_digit (a.toNat / 4) :: base64_digit (a.toNat % 4 * 16 + b.toNat / 16) ::
      base64_digit (b.toNat % 16 * 4 + c.toNat / 64) :: base64_digit (c.toNat % 64) :: base64 rest

theorem base64_digit_char {n : Nat} (hn : n < 64) : base64_char (base64_digit n) = true := by
  have hall : ∀ n : Fin 64, base64_char (base64_digit n) = true := by decide
  exact hall ⟨n, hn⟩

theorem length_base64 (data : List UInt8) : (base64 data).length = (data.length + 2) / 3 * 4 := by
  fun_induction base64 data with
  | case1 => rfl
  | case2 a => simp only [List.length_cons, List.length_nil, Nat.reduceAdd, Nat.reduceDiv, Nat.reduceMul]
  | case3 a b => simp only [List.length_cons, List.length_nil, Nat.reduceAdd, Nat.reduceDiv, Nat.reduceMul]
  | case4 a b c rest ih =>
    simp only [List.length_cons, ih]
    omega

theorem base64_all_char (data : List UInt8) : (base64 data).all base64_char = true := by
  have hpad : base64_char 61 = true := by decide
  fun_induction base64 data with
  | case1 => rfl
  | case2 a =>
    have ha := a.toNat_lt
    simp only [List.all_cons, List.all_nil, hpad, Bool.and_true]
    rw [base64_digit_char (by omega), base64_digit_char (by omega)]
    rfl
  | case3 a b =>
    have ha := a.toNat_lt
    have hb := b.toNat_lt
    simp only [List.all_cons, List.all_nil, hpad, Bool.and_true]
    rw [base64_digit_char (by omega), base64_digit_char (by omega), base64_digit_char (by omega)]
    rfl
  | case4 a b c rest ih =>
    have ha := a.toNat_lt
    have hb := b.toNat_lt
    have hc := c.toNat_lt
    simp only [List.all_cons, ih, Bool.and_true]
    rw [base64_digit_char (by omega), base64_digit_char (by omega), base64_digit_char (by omega),
      base64_digit_char (by omega)]
    rfl

/-- SHA-1 on the two messages that are hashed below, and base64. -/
def sample_digest : Digest where
  sha1 := fun message =>
    if message = bytes "dGhlIHNhbXBsZSBub25jZQ==258EAFA5-E914-47DA-95CA-C5AB0DC85B11" then
      [0xb3, 0x7a, 0x4f, 0x2c, 0xc0, 0x62, 0x4f, 0x16, 0x90, 0xf6, 0x46, 0x06, 0xcf, 0x38, 0x59, 0x45, 0xb2, 0xbe,
        0xc4, 0xea]
    else
      [0xb4, 0x58, 0x24, 0xe6, 0xc4, 0xd9, 0x59, 0x02, 0xf3, 0xfd, 0xf6, 0xd4, 0xbe, 0x51, 0x66, 0x0d, 0x04, 0x88,
        0x69, 0xbd]
  base64_encode := base64

theorem sample_digest_documented : sample_digest.Documented := by
  refine ⟨?_, length_base64, base64_all_char⟩
  intro message
  simp only [sample_digest]
  split
  · rfl
  · rfl

/-- A new end of a connection. -/
def new_end (is_server : Bool) : HandshakeConnection :=
  { uvhttp_ws_connection_create false is_server 1024 1024 (fun _ => 0) with client_key := [] }

/-- The handshake for `/chat` on `server.example.com`, and a response with the
accept value of another key. -/
theorem handshake_sound_chat :
    Agreed sample_digest (bytes "the sample nonce") (bytes "server.example.com") (bytes "/chat") (new_end false)
        (new_end true) 512 512 [] [] ∧
      Rejects sample_digest (bytes "the sample nonce") (uvhttp_ws_handshake_client sample_digest
        (some (bytes "the sample nonce")) (new_end false) (bytes "server.example.com") (bytes "/chat") 512).2.1
        (handshake_response (bytes "tFgk5sTZWQLz/fbUvlFmDQSIab0=")) [] 129 := by
  refine (handshake_sound_iff sample_digest_documented (by decide) _ _ _ _ _ _ (by decide +kernel) (by decide +kernel)
    _ _ _).mpr ⟨.inl ⟨by decide +kernel, by decide +kernel⟩, fun hforged => ?_⟩
  have hfirst := hforged.first
  revert hfirst
  decide +kernel

/-- A response with the accept value in the text of its status line and another
one in its header. -/
def forged_response : List UInt8 :=
  bytes "HTTP/1.1 101 Sec-WebSocket-Accept: s3pPLMBiTxaQ9kYGzzhZRbK+xOo=\r\n" ++ bytes "Upgrade: websocket\r\n" ++
    bytes "Sec-WebSocket-Accept: another\r\n" ++ bytes "\r\n"

/-- On the host `sec-websocket-key.example.com` the server takes `example.com` for
the key, and the client refuses its answer; a forged response is accepted. -/
theorem handshake_misled :
    ¬ Agreed sample_digest (bytes "the sample nonce") (bytes "sec-websocket-key.example.com") (bytes "/")
        (new_end false) (new_end true) 512 512 [] [] ∧
      ¬ Rejects sample_digest (bytes "the sample nonce") { new_end false with
        client_key := bytes "dGhlIHNhbXBsZSBub25jZQ==" } forged_response [] forged_response.length := by
  constructor
  · rw [agreed_iff sample_digest_documented (by decide) _ _ (by decide +kernel) (by decide +kernel)]
    rintro (⟨-, hhost⟩ | hsame)
    · revert hhost
      decide +kernel
    · have hkey := hsame (bytes "example.com") (by decide +kernel)
      revert hkey
      decide +kernel
  · rw [rejects_iff sample_digest_documented (by decide) (by decide +kernel), not_not]
    exact ⟨by decide +kernel, by decide +kernel, by decide +kernel, by decide +kernel, bytes "another",
      by decide +kernel, by decide +kernel⟩

end uvhttp.websocket

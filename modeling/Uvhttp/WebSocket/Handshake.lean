import Uvhttp.Lib.Lines
import Uvhttp.Lib.Search
import Uvhttp.WebSocket.Connection

open text_search

namespace uvhttp.websocket

/-- SHA-1 and base64 of the crypto library. -/
structure Digest where
  sha1 : List UInt8 → List UInt8
  base64_encode : List UInt8 → List UInt8

/-- The letters, digits and signs of base64 text. -/
def base64_char (c : UInt8) : Bool :=
  (65 ≤ c && c ≤ 90) || (97 ≤ c && c ≤ 122) || (48 ≤ c && c ≤ 57) || c == 43 || c == 47 || c == 61

/-- What their documentation says: a hash has 20 bytes, and every three bytes
begun become four characters. -/
structure Digest.Documented (d : Digest) : Prop where
  sha1_length : ∀ message, (d.sha1 message).length = 20
  base64_length : ∀ data, (d.base64_encode data).length = (data.length + 2) / 3 * 4
  base64_chars : ∀ data, (d.base64_encode data).all base64_char = true

/-- `uvhttp_ws_connection_t` with the key of the handshake. -/
structure HandshakeConnection extends WsConnection where
  client_key : List UInt8

def WS_GUID : List UInt8 := bytes "258EAFA5-E914-47DA-95CA-C5AB0DC85B11"
def HEADER_WEBSOCKET_KEY : List UInt8 := bytes "Sec-WebSocket-Key"
def HEADER_WEBSOCKET_ACCEPT : List UInt8 := bytes "Sec-WebSocket-Accept"

def tolower (c : UInt8) : UInt8 := if 65 ≤ c && c ≤ 90 then c + 32 else c

/-- `uvhttp_ws_strcasestr`. -/
def uvhttp_ws_strcasestr (haystack needle : List UInt8) : Option (List UInt8) :=
  if needle = [] then none else find tolower needle haystack

/-- The text that both sides take for the value of a header: behind the first
occurrence of its name, one more character and blanks, up to the end of the line
or 63 characters. A name that ends the text sends the search past the terminating
NUL, into the string `behind` it. -/
def extract_value (text behind name : List UInt8) : Option (List UInt8) :=
  (uvhttp_ws_strcasestr text name).map fun found =>
    let value := if found.length = name.length then behind else found.drop (name.length + 1)
    ((value.dropWhile (· = 32)).takeWhile fun c => c != 13 && c != 10).take 63

/-- `uvhttp_ws_generate_accept`, into a buffer of at least 32 bytes. -/
def uvhttp_ws_generate_accept (d : Digest) (key : List UInt8) : List UInt8 :=
  d.base64_encode (d.sha1 ((key ++ WS_GUID).take 255))

/-- The response of the server to a key. -/
def handshake_response (accept : List UInt8) : List UInt8 :=
  bytes "HTTP/1.1 101 Switching Protocols\r\n" ++ bytes "Upgrade: websocket\r\n" ++
    bytes "Connection: Upgrade\r\n" ++ bytes "Sec-WebSocket-Accept: " ++ accept ++ bytes "\r\n" ++ bytes "\r\n"

/-- `uvhttp_ws_handshake_server`, on the C string request: the result and the
response written to a buffer of `response_len` bytes. -/
def uvhttp_ws_handshake_server (d : Digest) (conn : HandshakeConnection) (request behind : List UInt8)
    (response_len : Nat) : UvhttpError × HandshakeConnection × List UInt8 :=
  match extract_value request behind HEADER_WEBSOCKET_KEY with
  | none => (.INVALID_PARAM, conn, [])
  | some key =>
    let response := handshake_response (uvhttp_ws_generate_accept d key)
    if response.length ≥ response_len then (.INVALID_PARAM, conn, response.take (response_len - 1))
    else (.OK, { conn with state := .OPEN }, response)

/-- The request of the client. -/
def handshake_request (path host key : List UInt8) : List UInt8 :=
  bytes "GET " ++ path ++ bytes " HTTP/1.1\r\n" ++ bytes "Host: " ++ host ++ bytes "\r\n" ++
    bytes "Upgrade: websocket\r\n" ++ bytes "Connection: Upgrade\r\n" ++ bytes "Sec-WebSocket-Key: " ++ key ++
    bytes "\r\n" ++ bytes "Sec-WebSocket-Version: 13\r\n" ++ bytes "\r\n"

/-- `uvhttp_ws_handshake_client`, on the C strings host and path: the result and
the request written to a buffer of `request_len` bytes. `random` is the answer of
the random generator. -/
def uvhttp_ws_handshake_client (d : Digest) (random : Option (List UInt8)) (conn : HandshakeConnection)
    (host path : List UInt8) (request_len : Nat) : UvhttpError × HandshakeConnection × List UInt8 :=
  match random with
  | none => (.INVALID_PARAM, conn, [])
  | some raw_key =>
    let base64_key := d.base64_encode raw_key
    let conn := { conn with client_key := base64_key.take 63 }
    let request := handshake_request path host base64_key
    if request.length ≥ request_len then (.INVALID_PARAM, conn, request.take (request_len - 1))
    else (.OK, conn, request)

/-- `uvhttp_ws_verify_handshake_response`, on the C string response. -/
def uvhttp_ws_verify_handshake_response (d : Digest) (conn : HandshakeConnection) (response behind : List UInt8)
    (response_len : Nat) : UvhttpError × HandshakeConnection :=
  if response_len = 0 then (.INVALID_PARAM, conn)
  else if response.take 12 ≠ bytes "HTTP/1.1 101" then (.INVALID_PARAM, conn)
  else if (uvhttp_ws_strcasestr response (bytes "Upgrade: websocket")).isNone then (.INVALID_PARAM, conn)
  else
    match extract_value response behind HEADER_WEBSOCKET_ACCEPT with
    | none => (.INVALID_PARAM, conn)
    | some accept =>
      let expected_accept := d.base64_encode (d.sha1 ((conn.client_key ++ WS_GUID).take 127))
      if conn.client_key ≠ [] ∧ accept ≠ expected_accept then (.INVALID_PARAM, conn)
      else (.OK, { conn with state := .OPEN })

end uvhttp.websocket

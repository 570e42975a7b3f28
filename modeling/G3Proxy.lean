import G3Proxy.Core.Machine
import G3Proxy.Core.Lists
import G3Proxy.Core.Panic
import G3Proxy.Core.DelayQueue
import G3Proxy.Core.Scan
import G3Proxy.Core.Aligned
import G3Proxy.Core.Bytes
import G3Proxy.Core.Hex
import G3Proxy.Core.ChunkedCoding
import G3Proxy.Core.CasLoop
import G3Proxy.Io.Stream
import G3Proxy.Io.DatagramLimit
import G3Proxy.Io.TokenBucket
import G3Proxy.Io.StreamLimit
import G3Proxy.Io.StreamLimitTokens
import G3Proxy.Io.StreamTokenBucket
import G3Proxy.Io.LimitedCopy
import G3Proxy.Io.OwnedCopy
import G3Proxy.Io.CopySpec
import G3Proxy.Io.FixedWindow
import G3Proxy.Io.LimitedSocket
import G3Proxy.Io.LineRecvBuf
import G3Proxy.Http.StreamToChunked
import G3Proxy.Http.StreamToChunkedProof
import G3Proxy.Http.Header
import G3Proxy.Http.Request
import G3Proxy.Http.RequestFraming
import G3Proxy.Http.Response
import G3Proxy.Http.ResponseFraming
import G3Proxy.Http.BodyReader
import G3Proxy.Http.BodyReaderTotal
import G3Proxy.Http.BodyReaderProof
import G3Proxy.Http.ChunkedDecoder
import G3Proxy.Http.ChunkedDecoderProof
import G3Proxy.Http.ChunkedRoundTrip
import G3Proxy.Http.TrailerReaderProof
import G3Proxy.Http.Preview
import G3Proxy.Http.PreviewProof
import G3Proxy.Http.BodyToChunked
import G3Proxy.Http.PlainBodyProof
import G3Proxy.Http.BodyToChunkedProof
import G3Proxy.H2.ToChunkedTransfer
import G3Proxy.H2.ToChunkedTransferProof
import G3Proxy.Dpi.Protocol
import G3Proxy.Dpi.Inspect
import G3Proxy.Dpi.Tls
import G3Proxy.Dpi.QuicCrypto
import G3Proxy.Dpi.QuicCryptoReassembly
import G3Proxy.Dpi.QuicFrame
import G3Proxy.Dpi.TlsParse
import G3Proxy.Dpi.TlsRoundTrip
import G3Proxy.Dpi.QuicPacket
import G3Proxy.Smtp.TextEncoder
import G3Proxy.Smtp.TextDecoder
import G3Proxy.Smtp.TextReader
import G3Proxy.Net.Host
import G3Proxy.Net.AddrText
import G3Proxy.Net.Haproxy
import G3Proxy.Net.HaproxyRoundTrip
import G3Proxy.Net.HaproxyV1Reader
import G3Proxy.Socks.V5
import G3Proxy.Socks.V5RoundTrip
import G3Proxy.Acl.DstHost
import G3Proxy.Acl.DstHostCheck
import G3Proxy.Crypt.XCrypt
import G3Proxy.Collection.SelectiveVec
import G3Proxy.Collection.RoundRobin
import G3Proxy.Escape.HappyEyeballs
import G3Proxy.Resolver.Runtime
import G3Proxy.Resolver.RuntimeInvariant

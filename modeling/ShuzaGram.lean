import ShuzaGram.Auth.SignIn
import ShuzaGram.Domain.Phone
import ShuzaGram.Domain.Types
import ShuzaGram.Infra.Prog
import ShuzaGram.Infra.Table
import ShuzaGram.Mtproto.Crypto.Srp
import ShuzaGram.Properties.ContainerLoss
import ShuzaGram.Properties.SessionRejected
import ShuzaGram.Properties.SessionReplay
import ShuzaGram.Properties.SessionReplies
import ShuzaGram.Auth.LoginRuns
import ShuzaGram.Store.Frames
import ShuzaGram.Properties.OwnerDrift
import ShuzaGram.Properties.FailedLogin
import ShuzaGram.Infra.History
import ShuzaGram.Properties.LoginCodes
import ShuzaGram.Auth.CheckPassword
import ShuzaGram.Mtproto.Messages.Account
import ShuzaGram.Mtproto.Messages.Auth
import ShuzaGram.Users.Profile
import ShuzaGram.Server.Handlers
import ShuzaGram.Server.HandlerRuns
import ShuzaGram.Properties.TwoFactor
import ShuzaGram.Mtproto.Crypto.Rsa
import ShuzaGram.Infra.Channel
import ShuzaGram.Infra.Cut
import ShuzaGram.Infra.Steps
import ShuzaGram.Mtproto.Crypto.Dh
import ShuzaGram.Mtproto.Messages.Handshake
import ShuzaGram.Mtproto.ServerExchange
import ShuzaGram.Mtproto.DhParams
import ShuzaGram.Mtproto.ClientExchange
import ShuzaGram.Mtproto.TcpHandshakeServer
import ShuzaGram.Properties.HandshakeAgreement
import ShuzaGram.Properties.HandshakeBinding
import ShuzaGram.Properties.ExchangeShares
import ShuzaGram.Properties.AckTransparency
import ShuzaGram.Properties.FrameIdentity
import ShuzaGram.Store.AuthKeyStore
import ShuzaGram.Infra.Mutex
import ShuzaGram.Store.DbCalls
import ShuzaGram.Auth.BindTempAuthKey
import ShuzaGram.Server.Threads
import ShuzaGram.Properties.SharedConnection
import ShuzaGram.Infra.Pool
import ShuzaGram.Infra.Race
import ShuzaGram.Properties.ProfileUpdates
import ShuzaGram.Server.AuthKeys
import ShuzaGram.Properties.AuthKeyLifetime
import ShuzaGram.Properties.ExpiredKeys
import ShuzaGram.Server.Responses
import ShuzaGram.Properties.LockedOut
import ShuzaGram.Auth.Challenge
import ShuzaGram.Properties.SrpCompleteness
import ShuzaGram.Properties.StaleChallenges
import ShuzaGram.Properties.MessagePadding
import ShuzaGram.Infra.ByteStream
import ShuzaGram.Mtproto.Transport.Abridged
import ShuzaGram.Mtproto.Transport.Intermediate
import ShuzaGram.Mtproto.Transport.Full
import ShuzaGram.Properties.Framing
import ShuzaGram.Infra.Keystream
import ShuzaGram.Mtproto.Transport.Detect
import ShuzaGram.Properties.TransportDetection
import ShuzaGram.Properties.ObfuscatedDuplex
import ShuzaGram.Properties.InvokeWrappers
import ShuzaGram.Properties.JsonDepth
import ShuzaGram.Infra.Parses
import ShuzaGram.Properties.BoxedArguments
import ShuzaGram.Infra.Flags
import ShuzaGram.Mtproto.Messages.Users
import ShuzaGram.Properties.UserObjects
import ShuzaGram.Mtproto.Messages.Help
import ShuzaGram.Server.Registry
import ShuzaGram.Properties.WholeWords
import ShuzaGram.Infra.Residues
import ShuzaGram.Properties.Generators
import ShuzaGram.Infra.Utf8
import ShuzaGram.Properties.RuneLimits
import ShuzaGram.Properties.BatchedUsers
import ShuzaGram.Store.UserMutations
import ShuzaGram.Properties.Tombstones
import ShuzaGram.Store.AuthIdentityTx
import ShuzaGram.Properties.LoginBaseline
import ShuzaGram.Properties.UsernameRegistry
import ShuzaGram.Properties.UsernameChecks
import ShuzaGram.OtpDelivery.WebhookSender
import ShuzaGram.Properties.UndeliveredCodes
import ShuzaGram.Auth.BindEnvelope
import ShuzaGram.Properties.TempKeyBinding
import ShuzaGram.Infra.Transactions
import ShuzaGram.Store.Statements
import ShuzaGram.Store.LoginSessions
import ShuzaGram.Properties.Relogins
import ShuzaGram.Properties.RsaPadding
import ShuzaGram.Properties.MessageIds
import ShuzaGram.Properties.Codecs
import ShuzaGram.Properties.ExchangeAnswers
import ShuzaGram.Properties.LayerMerging
import ShuzaGram.Infra.ShiftRegister
import ShuzaGram.Properties.FrameChecksum
import ShuzaGram.Properties.PremiumSweep
import ShuzaGram.Mtproto.Crypto.Der
import ShuzaGram.Properties.DerBounds
import ShuzaGram.Infra.Text
import ShuzaGram.Infra.Refinement
import ShuzaGram.Net.TcpListener
import ShuzaGram.Mtproto.AcceptLoop
import ShuzaGram.Properties.AcceptedSockets
import ShuzaGram.Net.TcpSocket
import ShuzaGram.Net.HttpClient
import ShuzaGram.Properties.HttpExchange
import ShuzaGram.OtpDelivery.Signature
import ShuzaGram.Properties.WebhookExchange
import ShuzaGram.Properties.Sockets
import ShuzaGram.Infra.LockOrder
import ShuzaGram.Infra.FiniteRuns
import ShuzaGram.Properties.NoDeadlock
import ShuzaGram.Properties.ServedCalls
import ShuzaGram.Properties.RpcOverTcp
import ShuzaGram.Infra.Descriptors
import ShuzaGram.Infra.Ensures
import ShuzaGram.Properties.LoginClients
import ShuzaGram.Properties.SparedLogins
import ShuzaGram.Properties.LoginCompletes

import MtossBot.Application.ExecutionService
import MtossBot.Infrastructure.FakeBroker
import MtossBot.Library.Pool
import MtossBot.Theorems.IntentKey
import MtossBot.Theorems.NoLookAhead
import MtossBot.Theorems.SimulatedBook
import MtossBot.Theorems.TradeActions
import MtossBot.Theorems.TradeInvariant
import MtossBot.Workers.Executor
import MtossBot.Theorems.RiskGate
import MtossBot.Theorems.RoundTrip
import MtossBot.Runtime.System
import MtossBot.Lemmas.ExecutionFollows
import MtossBot.Lemmas.Requests
import MtossBot.Theorems.AtMostOnce
import MtossBot.Theorems.FinalReplay
import MtossBot.Lemmas.Rows
import MtossBot.Theorems.SizingCaps
import MtossBot.Theorems.SizingGate
import MtossBot.Theorems.CreateDecides
import MtossBot.Theorems.StoredFills
import MtossBot.Theorems.OrderLifecycle
import MtossBot.Theorems.Polling
import MtossBot.Library.Curve
import MtossBot.Theorems.Brackets
import MtossBot.Domain.OrderDecimal
import MtossBot.Lemmas.Decimals
import MtossBot.Domain.DecimalContext
import MtossBot.Theorems.BacktestAccounting
import MtossBot.Theorems.BacktestRatios
import MtossBot.Lemmas.AloneRuns
import MtossBot.Runtime.Solo
import MtossBot.Theorems.OldestFirst
import MtossBot.Lemmas.LimitRuns
import MtossBot.Library.EventLoop
import MtossBot.Theorems.DegradedSession
import MtossBot.Theorems.CreationAtomic
import MtossBot.Runtime.UnitOfWork
import MtossBot.Runtime.Consumers
import MtossBot.Theorems.SharedOutbox
import MtossBot.Library.Crossing
import MtossBot.Theorems.NoStrandedOrder
import MtossBot.Theorems.Ratchet
import MtossBot.Theorems.Warmup
import MtossBot.Theorems.TradeReset
import MtossBot.Theorems.RiskEvaluation
import MtossBot.Theorems.BracketFills
import MtossBot.Library.Runs
import MtossBot.Application.ExecutionPort
import MtossBot.Theorems.ExecutionEnds
import MtossBot.Theorems.PositionLedger
import MtossBot.Infrastructure.Mt5Links
import MtossBot.Theorems.LinkStore
import MtossBot.Theorems.ClientThread
import MtossBot.Theorems.DispatchOrder
import MtossBot.Theorems.RecursiveAverages
import MtossBot.Domain.OrderInput
import MtossBot.Theorems.OrderNumeric
import MtossBot.Lemmas.DecimalText
import MtossBot.Library.Numerals
import MtossBot.Web.Format
import MtossBot.Lemmas.Format
import MtossBot.Theorems.MoneyFormat
import MtossBot.Api.DuplicateClassifier
import MtossBot.Theorems.DuplicateIntent
import MtossBot.Theorems.PnlTone
import MtossBot.Theorems.Mt5Replies
import MtossBot.Theorems.Magic
import MtossBot.Theorems.ConfirmationButtons
import MtossBot.Theorems.StreamEntries
import MtossBot.Lemmas.Console
import MtossBot.Theorems.ConsoleApprovals
import MtossBot.Theorems.ConsoleControls
import MtossBot.Theorems.ConsoleLimits
import MtossBot.Theorems.ConsoleAmounts
import MtossBot.Theorems.PriceScale

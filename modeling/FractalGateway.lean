import FractalGateway.Client.Config
import FractalGateway.Client.Traffic
import FractalGateway.Client.Totals
import FractalGateway.Client.Event
import FractalGateway.Watchdog.Billing
import FractalGateway.Watchdog.Connectivity
import FractalGateway.Watchdog.Manager
import FractalGateway.Watchdog.Visits
import FractalGateway.Watchdog.Farewell
import FractalGateway.Watchdog.Isolation
import FractalGateway.Watchdog.Refusals
import FractalGateway.Watchdog.Alternation
import FractalGateway.Watchdog.Delay
import FractalGateway.Watchdog.Dump
import FractalGateway.Gateway.Diffs
import FractalGateway.Gateway.Proxy
import FractalGateway.Gateway.Panics
import FractalGateway.Gateway.Retry
import FractalGateway.Gateway.Addresses
import FractalGateway.Gateway.Tables
import FractalGateway.Gateway.Cleaning
import FractalGateway.Gateway.Options
import FractalGateway.Gateway.WireguardConfig
import FractalGateway.Websocket.Order
import FractalGateway.Websocket.Overrun
import FractalGateway.Websocket.Fates
import FractalGateway.Integration.Link
import FractalGateway.Gateway.Startup
import FractalGateway.Watchdog.Secrets
import FractalGateway.Watchdog.Reports
import FractalGateway.Watchdog.Configured
import FractalGateway.Gateway.Serving
